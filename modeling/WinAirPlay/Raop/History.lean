import WinAirPlay.Http.Parser
import WinAirPlay.Raop.Handlers

/-! # What the requests of a connection leave

The handler of `fp-setup` is the only one that writes to the FairPlay session, and it does so for the
messages that it accepts. So the session is what the last accepted message made of it.
-/

namespace WinAirPlay.Raop
open Foundations.ByteBuffer Foundations.CheckedMemory
set_option autoImplicit false

/-! ## Completed requests -/

/-- Every field of a header is there; its value need not be. -/
def NamedFields : List (Option Bytes) → Prop
  | field :: _ :: rest => field ≠ none ∧ NamedFields rest
  | _ => True

/-- What the parser has reported when `conn_request` is called. -/
structure Completed (request : HttpRequest) : Prop where
  method : request.method ≠ none
  url : request.url ≠ none
  fields : NamedFields request.headers

theorem namedFields_pairs (headers : List (Bytes × Bytes)) :
    NamedFields (headers.flatMap fun header => [some header.1, some header.2]) := by
  induction headers with
  | nil => trivial
  | cons header headers ih => exact ⟨by simp, ih⟩

theorem completed_httpRequestOf (message : HttpMessage) : Completed (httpRequestOf message) where
  method := by simp [httpRequestOf]
  url := by simp [httpRequestOf]
  fields := namedFields_pairs message.headers

theorem getHeader_ok {headers : List (Option Bytes)} (h : NamedFields headers) (name : Bytes) :
    getHeader name headers = .ok (findHeader name headers) := by
  induction headers using NamedFields.induct with
  | case1 field value rest ih =>
    obtain ⟨hfield, hrest⟩ := h
    cases field with
    | none => exact absurd rfl hfield
    | some field =>
      rw [getHeader, findHeader]
      simp only [Option.some.injEq]
      by_cases hname : field = name
      · rw [if_pos hname, if_pos hname]
      · rw [if_neg hname, if_neg hname, ih hrest]
  | case2 headers hshort =>
    match headers, hshort with
    | [], _ => rfl
    | [some field], _ => rfl
    | [none], _ => rfl
    | field :: value :: rest, hshort => exact absurd rfl (hshort field value rest)

theorem Completed.header {request : HttpRequest} (h : Completed request) (name : String) :
    httpRequestGetHeader request name = .ok (WinAirPlay.httpRequestGetHeader request name) :=
  getHeader_ok h.fields _

/-- A search that returns has found what is there. -/
theorem getHeader_eq {name : Bytes} {headers : List (Option Bytes)} {value : Option Bytes}
    (h : getHeader name headers = .ok value) : value = findHeader name headers := by
  induction headers using NamedFields.induct with
  | case1 field first rest ih =>
    cases field with
    | none => cases h
    | some field =>
      rw [getHeader] at h
      rw [findHeader]
      simp only [Option.some.injEq]
      by_cases hname : field = name
      · rw [if_pos hname] at h ⊢
        cases h
        rfl
      · rw [if_neg hname] at h ⊢
        exact ih h
  | case2 headers hshort =>
    match headers, hshort with
    | [], _ => cases h; rfl
    | [some field], _ => cases h; rfl
    | [none], _ => cases h; rfl
    | field :: value :: rest, hshort => exact absurd rfl (hshort field value rest)

/-! ## The handlers -/

theorem selectHandler_fpsetup {method : String} {url : Option Bytes} :
    selectHandler method url = some .fpsetup ↔ method = "POST" ∧ url = some (ascii "/fp-setup") := by
  constructor
  · intro h
    have other : ∀ (p : Prop) [Decidable p] (a b : Option RaopHandler), a ≠ some .fpsetup →
        b ≠ some .fpsetup → (if p then a else b) ≠ some .fpsetup := by
      intro p _ a b ha hb
      by_cases hp : p
      · rwa [if_pos hp]
      · rwa [if_neg hp]
    by_contra hnot
    unfold selectHandler at h
    rw [if_neg hnot] at h
    refine absurd h ?_
    repeat refine other _ _ _ (by decide) ?_
    exact (Option.some_ne_none _).symm
  · rintro ⟨rfl, rfl⟩
    decide

/-- At most the pairing session has changed. -/
def OnlyPairing (conn conn' : RaopConnS) : Prop := conn' = { conn with pairing := conn'.pairing }

/-- At most the FairPlay session has changed. -/
def OnlyFairplay (conn conn' : RaopConnS) : Prop := conn' = { conn with fairplay := conn'.fairplay }

/-- At most the pointers to the media sessions have changed. -/
def OnlySessions (conn conn' : RaopConnS) : Prop :=
  conn' = { conn with
    raopNtp := conn'.raopNtp
    raopRtp := conn'.raopRtp
    raopRtpMirror := conn'.raopRtpMirror
    allocated := conn'.allocated }

/-- The connection has the client and the FairPlay session of before. -/
structure Keeps (conn conn' : RaopConnS) : Prop where
  remote : conn'.remote = conn.remote
  fairplay : conn'.fairplay = conn.fairplay

theorem Keeps.refl (conn : RaopConnS) : Keeps conn conn := ⟨rfl, rfl⟩

theorem OnlyPairing.keeps {conn conn' : RaopConnS} (h : OnlyPairing conn conn') :
    Keeps conn conn' := by
  rw [h]
  exact ⟨rfl, rfl⟩

theorem OnlySessions.keeps {conn conn' : RaopConnS} (h : OnlySessions conn conn') :
    Keeps conn conn' := by
  rw [h]
  exact ⟨rfl, rfl⟩

section
variable {P : Openssl} {F : Playfair} {L : Libplist} {conn : RaopConnS} {x : RaopExchange}
  {o : Outcome}

theorem raopHandlerInfo_conn (h : raopHandlerInfo L conn x = .ok o) : o.conn = conn := by
  unfold raopHandlerInfo at h
  cases hdnssd : x.dnssd with
  | none =>
    rw [hdnssd] at h
    cases h
  | some dnssd =>
    rw [hdnssd] at h
    obtain ⟨strlen, -, h⟩ := bind_eq_ok.mp h
    obtain ⟨size, -, h⟩ := bind_eq_ok.mp h
    obtain ⟨⟨str, written⟩, -, h⟩ := bind_eq_ok.mp h
    obtain ⟨hwAddr, -, h⟩ := bind_eq_ok.mp h
    obtain ⟨pk, -, h⟩ := bind_eq_ok.mp h
    cases h
    rfl

theorem raopHandlerPairsetup_pairing (h : raopHandlerPairsetup P conn x = .ok o) :
    OnlyPairing conn o.conn := by
  unfold raopHandlerPairsetup at h
  split_ifs at h
  · cases h
    rfl
  · cases h
    rfl

theorem raopHandlerPairverify_pairing (h : raopHandlerPairverify P conn x = .ok o) :
    OnlyPairing conn o.conn := by
  unfold raopHandlerPairverify at h
  dsimp only at h
  split at h
  · cases h
    rfl
  split at h
  · cases h
    rfl
  obtain ⟨phase, -, h⟩ := bind_eq_ok.mp h
  split at h
  · split at h
    · cases h
      rfl
    · obtain ⟨ecdhKey, -, h⟩ := bind_eq_ok.mp h
      obtain ⟨edKey, -, h⟩ := bind_eq_ok.mp h
      obtain ⟨r, -, h⟩ := bind_eq_ok.mp h
      cases h
      rfl
  split at h
  · split at h
    · cases h
      rfl
    · obtain ⟨signature, -, h⟩ := bind_eq_ok.mp h
      split at h
      · cases h
        rfl
      · cases h
        rfl
  · cases h
    rfl

theorem raopHandlerFpsetup_fairplay (h : raopHandlerFpsetup conn x = .ok o) :
    OnlyFairplay conn o.conn := by
  unfold raopHandlerFpsetup at h
  dsimp only at h
  split at h
  · obtain ⟨r, -, h⟩ := bind_eq_ok.mp h
    cases h
    rfl
  split at h
  · obtain ⟨r, -, h⟩ := bind_eq_ok.mp h
    cases h
    rfl
  · cases h
    rfl

theorem setupKeys_sessions {root : Option Plist} {part : SetupPart}
    (h : setupKeys F conn x root = .ok part) : OnlySessions conn part.conn := by
  unfold setupKeys at h
  split at h
  · obtain ⟨aesiv, -, h⟩ := bind_eq_ok.mp h
    obtain ⟨aeskey, -, h⟩ := bind_eq_ok.mp h
    dsimp only at h
    split_ifs at h
    cases h
    rfl
  · cases h
    rfl

theorem setupStreams_conn (conn : RaopConnS) (x : RaopExchange) (useUdp : Bool)
    (root : Option Plist) : (setupStreams conn x useUdp root).conn = conn := by
  unfold setupStreams
  split
  · rfl
  · rfl

theorem raopHandlerSetup_sessions (h : raopHandlerSetup F L conn x = .ok o) :
    OnlySessions conn o.conn := by
  obtain ⟨dacpId, -, h⟩ := bind_eq_ok.mp h
  obtain ⟨activeRemote, -, h⟩ := bind_eq_ok.mp h
  obtain ⟨transport, -, h⟩ := bind_eq_ok.mp h
  obtain ⟨keys, hkeys, h⟩ := bind_eq_ok.mp h
  cases h
  rw [setupStreams_conn]
  exact setupKeys_sessions hkeys

theorem raopHandlerGetParameter_conn (h : raopHandlerGetParameter conn x = .ok o) :
    o.conn = conn := by
  obtain ⟨contentType, -, h⟩ := bind_eq_ok.mp h
  obtain ⟨header, -, h⟩ := bind_eq_ok.mp h
  dsimp only at h
  split at h
  · obtain ⟨found, -, h⟩ := bind_eq_ok.mp h
    split at h
    · cases h
      rfl
    · cases h
      rfl
  · cases h
    rfl

theorem raopHandlerSetParameter_conn (h : raopHandlerSetParameter conn x = .ok o) :
    o.conn = conn := by
  obtain ⟨contentType, -, h⟩ := bind_eq_ok.mp h
  obtain ⟨header, -, h⟩ := bind_eq_ok.mp h
  dsimp only at h
  split at h
  · obtain ⟨calls, -, h⟩ := bind_eq_ok.mp h
    cases h
    rfl
  split at h
  · cases h
    rfl
  split at h
  · cases h
    rfl
  · cases h
    rfl

theorem flushRequest_conn (h : flushRequest conn x = .ok o) : o.conn = conn := by
  obtain ⟨rtpinfo, -, h⟩ := bind_eq_ok.mp h
  cases h
  rfl

theorem teardownRequest_sessions (conn : RaopConnS) (x : RaopExchange) :
    OnlySessions conn (teardownRequest conn x).conn := by
  unfold teardownRequest
  split_ifs
  · rfl
  · rfl
  · rfl

/-- Only the handler of `fp-setup` writes to the FairPlay session. -/
theorem runHandler_keeps {handler : Option RaopHandler} (hother : handler ≠ some .fpsetup)
    (h : runHandler P F L handler conn x = .ok o) : Keeps conn o.conn := by
  match handler with
  | some .info =>
    rw [raopHandlerInfo_conn h]
    exact .refl conn
  | some .pairsetup => exact (raopHandlerPairsetup_pairing h).keeps
  | some .pairverify => exact (raopHandlerPairverify_pairing h).keeps
  | some .fpsetup => exact absurd rfl hother
  | some .setup => exact (raopHandlerSetup_sessions h).keeps
  | some .getParameter =>
    rw [raopHandlerGetParameter_conn h]
    exact .refl conn
  | some .setParameter =>
    rw [raopHandlerSetParameter_conn h]
    exact .refl conn
  | some .flush =>
    rw [flushRequest_conn h]
    exact .refl conn
  | some .teardown =>
    cases h
    exact (teardownRequest_sessions conn x).keeps
  | some .options | some .feedback | some .record | none =>
    cases h
    exact .refl conn

/-- A request that returns has left the connection alone or run a handler. -/
theorem connRequest_conn {garbage : ℕ → UInt8}
    {r : RaopConnS × Option ResponseBuffer.HttpResponseS × List MediaCall}
    (h : connRequest P F L garbage conn x = .ok r) :
    (r.1 = conn ∧ (x.request.method = none ∨
      WinAirPlay.httpRequestGetHeader x.request "CSeq" = none)) ∨
    ∃ method o, x.request.method = some method ∧
      WinAirPlay.httpRequestGetHeader x.request "CSeq" ≠ none ∧
      runHandler P F L (selectHandler method x.request.url) conn x = .ok o ∧ r.1 = o.conn := by
  obtain ⟨found, hcseq, h⟩ := bind_eq_ok.mp h
  have hfound : found = WinAirPlay.httpRequestGetHeader x.request "CSeq" := getHeader_eq hcseq
  cases hmethod : x.request.method with
  | none =>
    rw [hmethod] at h
    cases h
    exact .inl ⟨rfl, .inl rfl⟩
  | some method =>
    rw [hmethod] at h
    cases found with
    | none =>
      cases h
      exact .inl ⟨rfl, .inr hfound.symm⟩
    | some cseq =>
      obtain ⟨response, -, h⟩ := bind_eq_ok.mp h
      obtain ⟨response, -, h⟩ := bind_eq_ok.mp h
      split at h
      · cases h
      obtain ⟨o, ho, h⟩ := bind_eq_ok.mp h
      obtain ⟨response, -, h⟩ := bind_eq_ok.mp h
      obtain ⟨response, -, h⟩ := bind_eq_ok.mp h
      cases h
      exact .inr ⟨method, o, rfl, by rw [← hfound]; exact Option.some_ne_none _, ho, rfl⟩

end

/-! ## The FairPlay session -/

/-- The message in a body that `fairplay_setup` or `fairplay_handshake` accepts. -/
def acceptedMessage (request : HttpRequest) : Option Bytes :=
  let (data, datalen) := httpRequestGetData request
  if (datalen = 16 ∨ datalen = 164) ∧ byteAt data 4 = 0x03 then some (data.take datalen.toNat)
  else none

def fpSetupMessage (x : RaopExchange) : Option Bytes :=
  if x.request.method = some "POST" ∧ x.request.url = some (ascii "/fp-setup") ∧
      WinAirPlay.httpRequestGetHeader x.request "CSeq" ≠ none then acceptedMessage x.request
  else none

/-- The last message that was accepted in a history. -/
def lastMessage (history : List RaopExchange) : Option Bytes :=
  (history.filterMap fpSetupMessage).getLast?

theorem lastMessage_concat (history : List RaopExchange) (x : RaopExchange) :
    lastMessage (history ++ [x]) = (fpSetupMessage x).or (lastMessage history) := by
  rw [lastMessage, List.filterMap_append, List.getLast?_append]
  cases hx : fpSetupMessage x with
  | none => simp [lastMessage, hx]
  | some m => simp [hx]

/-- There is a key message exactly when the last message accepted was one of the second phase, and
it is that message. -/
structure Session (fairplay : Fairplay) (last : Option Bytes) : Prop where
  length : fairplay.keymsg.length = 164
  ready : fairplay.keymsglen = 164 ↔ ∃ m, last = some m ∧ m.length = 164
  message : ∀ m, last = some m → m.length = 164 → fairplay.keymsg = m

theorem session_init : Session fairplayInit none where
  length := List.length_replicate
  ready := by simp [fairplayInit]
  message := by simp

theorem Session.setupPhase {fairplay : Fairplay} {last : Option Bytes} (h : Session fairplay last)
    {request : HttpRequest} (hlen : intOf request.data.length = 16) :
    Session (setupPhase fairplay request.data).1 ((acceptedMessage request).or last) := by
  have hle := intOf_le request.data.length
  unfold WinAirPlay.setupPhase acceptedMessage httpRequestGetData
  dsimp only
  by_cases hversion : byteAt request.data 4 = 0x03
  · have htake : (request.data.take 16).length = 16 := by rw [List.length_take]; omega
    rw [if_pos hversion, if_pos ⟨.inl hlen, hversion⟩, hlen, Option.some_or]
    refine ⟨h.length, ⟨fun hzero => by simp at hzero, ?_⟩, ?_⟩
    · rintro ⟨m, hm, hlength⟩
      cases hm
      exact absurd (htake.symm.trans hlength) (by omega)
    · rintro m hm hlength
      cases hm
      exact absurd (htake.symm.trans hlength) (by omega)
  · rw [if_neg hversion, if_neg fun hall => hversion hall.2, Option.none_or]
    exact h

theorem Session.handshakePhase {fairplay : Fairplay} {last : Option Bytes}
    (h : Session fairplay last) {request : HttpRequest}
    (hlen : intOf request.data.length = 164) :
    Session (handshakePhase fairplay request.data).1 ((acceptedMessage request).or last) := by
  have hle := intOf_le request.data.length
  have hlength := @handshakePhase_length fairplay request.data (by omega) h.length
  unfold WinAirPlay.handshakePhase at hlength ⊢
  unfold acceptedMessage httpRequestGetData
  dsimp only
  by_cases hversion : byteAt request.data 4 = 0x03
  · have htake : (request.data.take 164).length = 164 := by rw [List.length_take]; omega
    rw [if_pos hversion] at hlength
    rw [if_pos hversion, if_pos ⟨.inr hlen, hversion⟩, hlen, Option.some_or]
    refine ⟨hlength, ⟨fun _ => ⟨_, rfl, htake⟩, fun _ => rfl⟩, ?_⟩
    rintro m hm -
    cases hm
    rfl
  · rw [if_neg hversion, if_neg fun hall => hversion hall.2, Option.none_or]
    exact h

theorem raopHandlerFpsetup_session {conn : RaopConnS} {x : RaopExchange} {o : Outcome}
    {last : Option Bytes} (h : raopHandlerFpsetup conn x = .ok o)
    (hsession : Session conn.fairplay last) :
    o.conn.remote = conn.remote ∧
      Session o.conn.fairplay ((acceptedMessage x.request).or last) := by
  have hle := intOf_le x.request.data.length
  unfold raopHandlerFpsetup at h
  dsimp only [httpRequestGetData] at h
  by_cases hsetup : intOf x.request.data.length = 16
  · rw [if_pos hsetup] at h
    obtain ⟨r, hr, h⟩ := bind_eq_ok.mp h
    cases h
    rw [fairplaySetup_eq (by omega) hr]
    exact ⟨rfl, hsession.setupPhase hsetup⟩
  · rw [if_neg hsetup] at h
    by_cases hhandshake : intOf x.request.data.length = 164
    · rw [if_pos hhandshake] at h
      obtain ⟨r, hr, h⟩ := bind_eq_ok.mp h
      cases h
      rw [fairplayHandshake_ok _ (by omega)] at hr
      cases hr
      exact ⟨rfl, hsession.handshakePhase hhandshake⟩
    · rw [if_neg hhandshake] at h
      cases h
      have hnone : acceptedMessage x.request = none := by
        unfold acceptedMessage httpRequestGetData
        exact if_neg fun hall => hall.1.elim hsetup hhandshake
      rw [hnone, Option.none_or]
      exact ⟨rfl, hsession⟩

/-! ## Whole histories -/

section
variable {P : Openssl} {F : Playfair} {L : Libplist} {garbage : ℕ → UInt8}

/-- One request takes the session to the last message accepted. -/
theorem connRequest_session {conn : RaopConnS} {x : RaopExchange} {last : Option Bytes}
    {r : RaopConnS × Option ResponseBuffer.HttpResponseS × List MediaCall}
    (h : connRequest P F L garbage conn x = .ok r) (hsession : Session conn.fairplay last) :
    r.1.remote = conn.remote ∧ Session r.1.fairplay ((fpSetupMessage x).or last) := by
  obtain ⟨hconn, hnot⟩ | ⟨method, o, hmethod, hcseq, ho, hconn⟩ := connRequest_conn h
  · have hnone : fpSetupMessage x = none := by
      refine if_neg ?_
      rintro ⟨hpost, -, hcseq⟩
      obtain hmethod | hnot := hnot
      · rw [hmethod] at hpost
        cases hpost
      · exact hcseq hnot
    rw [hconn, hnone, Option.none_or]
    exact ⟨rfl, hsession⟩
  · rw [hconn]
    by_cases hfpsetup : selectHandler method x.request.url = some .fpsetup
    · obtain ⟨rfl, hurl⟩ := selectHandler_fpsetup.mp hfpsetup
      rw [hfpsetup] at ho
      rw [fpSetupMessage, if_pos ⟨hmethod, hurl, hcseq⟩]
      exact raopHandlerFpsetup_session ho hsession
    · have hkeeps := runHandler_keeps hfpsetup ho
      have hnone : fpSetupMessage x = none := by
        refine if_neg ?_
        rintro ⟨hpost, hurl, -⟩
        rw [hmethod] at hpost
        cases hpost
        exact hfpsetup (selectHandler_fpsetup.mpr ⟨rfl, hurl⟩)
      rw [hkeeps.remote, hkeeps.fairplay, hnone, Option.none_or]
      exact ⟨rfl, hsession⟩

theorem connRun_session {raopPairing : Pairing} {remote : Bytes} {history : List RaopExchange}
    {conn : RaopConnS}
    (hrun : connRun P F L garbage (connInit raopPairing remote) history = .ok conn) :
    conn.remote = remote ∧ Session conn.fairplay (lastMessage history) := by
  refine @foldlM_invariant _ _ _ (fun conn history =>
    conn.remote = remote ∧ Session conn.fairplay (lastMessage history)) _ ⟨rfl, session_init⟩ ?_ _ _
    hrun
  rintro conn history x conn' ⟨hremote, hsession⟩ hstep
  obtain ⟨r, hr, hstep⟩ := bind_eq_ok.mp hstep
  cases hstep
  obtain ⟨hremote', hsession'⟩ := connRequest_session hr hsession
  rw [lastMessage_concat]
  exact ⟨hremote'.trans hremote, hsession'⟩

end

end WinAirPlay.Raop
