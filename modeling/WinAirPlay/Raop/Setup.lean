import WinAirPlay.Raop.Requests

/-! # The keys of a `SETUP`

The first `SETUP` should create the sessions from valid keys only: `eiv` and `ekey` long enough, a
timing port, and a key from `fairplay_decrypt`. The handler checks none of this. It reads past a
short `eiv` or `ekey`, passes on the variables `aeskey` and `timing_rport` whether or not they were
written, and `playfair_decrypt` reads past its tables for an unknown mode. So it does what it should
exactly when the body is valid and the history ends in a second-phase message of a known mode.
-/

namespace WinAirPlay.Raop
open Foundations.ByteBuffer Foundations.CheckedMemory
set_option autoImplicit false

/-- The calls that create a session. -/
def MediaCall.creates : MediaCall → Bool
  | ntpInit .. => true
  | rtpInit .. => true
  | mirrorInit .. => true
  | _ => false

section
variable (F : Playfair) (L : Libplist)

/-- The lengths and the port are right, and `fairplay_decrypt` returns 0 with this key. -/
structure ValidKeys (conn : RaopConnS) (x : RaopExchange) (eiv ekey key : Bytes) (port : ℕ) :
    Prop where
  eivLength : 16 ≤ eiv.length
  ekeyLength : 72 ≤ ekey.length
  timingPort : timingPort L x = some port
  decrypted : decryptedKey F conn.fairplay ekey = some key

/-- The three sessions are new, and created with this key, IV and port. -/
structure CreatesSessions (conn : RaopConnS) (eiv key : Bytes) (port : ℕ) (o : Outcome) : Prop where
  ntp : o.conn.raopNtp = some conn.allocated
  rtp : o.conn.raopRtp = some (conn.allocated + 1)
  mirror : o.conn.raopRtpMirror = some (conn.allocated + 2)
  calls : o.calls.filter MediaCall.creates = [
    .ntpInit conn.remote (some (port % 2 ^ 16)),
    .rtpInit conn.remote (some key) (slice eiv 0 16) conn.pairing.ecdhSecret,
    .mirrorInit conn.remote (some key) conn.pairing.ecdhSecret]

/-- No session is created, so no key, IV or port is used. -/
structure LeavesSessions (conn : RaopConnS) (o : Outcome) : Prop where
  ntp : o.conn.raopNtp = conn.raopNtp
  rtp : o.conn.raopRtp = conn.raopRtp
  mirror : o.conn.raopRtpMirror = conn.raopRtpMirror
  calls : o.calls.filter MediaCall.creates = []

/-- The handler stays in bounds, creates the sessions from valid keys and otherwise leaves them. -/
def SessionsFromValidKeys (conn : RaopConnS) (x : RaopExchange) (eiv ekey : Bytes) : Prop :=
  ∃ o, raopHandlerSetup F L conn x = .ok o ∧
    ((∃ key port, ValidKeys F L conn x eiv ekey key port ∧ CreatesSessions conn eiv key port o) ∨
      (¬ ∃ key port, ValidKeys F L conn x eiv ekey key port) ∧ LeavesSessions conn o)

end

/-! ## The two parts of the handler -/

section
variable {F : Playfair} {L : Libplist} {conn : RaopConnS} {x : RaopExchange} {eiv ekey : Bytes}

theorem remoteControl_creates (conn : RaopConnS) (dacpId activeRemote : Option Bytes) :
    (remoteControl conn dacpId activeRemote).filter MediaCall.creates = [] := by
  unfold remoteControl
  split
  · split_ifs
    · rfl
    · rfl
  · rfl

theorem setupStream_creates (conn : RaopConnS) (x : RaopExchange) (useUdp : Bool) (i : ℕ)
    (stream : Plist) : (setupStream conn x useUdp i stream).2.1.filter MediaCall.creates = [] := by
  unfold setupStream
  dsimp only
  split_ifs
  all_goals rfl

/-- The streams are set up on the sessions that are there. -/
theorem setupStreams_creates (conn : RaopConnS) (x : RaopExchange) (useUdp : Bool)
    (root : Option Plist) :
    (setupStreams conn x useUdp root).calls.filter MediaCall.creates = [] := by
  unfold setupStreams
  split
  · rw [List.filter_flatMap, List.flatMap_eq_nil_iff]
    intro pass hpass
    obtain ⟨s, -, rfl⟩ := List.mem_map.mp hpass
    exact setupStream_creates conn x useUdp s.2 s.1
  · rfl

/-- The rest of the handler keeps the pointers and creates nothing. -/
theorem raopHandlerSetup_part (hx : Completed x.request) {o : Outcome}
    (h : raopHandlerSetup F L conn x = .ok o) :
    ∃ keys, setupKeys F conn x (setupRoot L x) = .ok keys ∧ o.conn = keys.conn ∧
      o.calls.filter MediaCall.creates = keys.calls.filter MediaCall.creates := by
  rw [raopHandlerSetup_eq hx] at h
  obtain ⟨keys, hkeys, h⟩ := bind_eq_ok.mp h
  cases h
  refine ⟨keys, hkeys, setupStreams_conn .., ?_⟩
  simp only [streamsPart, List.filter_append, remoteControl_creates, setupStreams_creates,
    List.nil_append, List.append_nil]

theorem decryptedKey_eq_some {fp : Fairplay} {input key : Bytes} :
    decryptedKey F fp input = some key ↔
      fp.keymsglen = 164 ∧ F fp.keymsg (slice input 16 16) (slice input 56 16) = key := by
  rw [decryptedKey]
  by_cases h : fp.keymsglen = 164
  · simp [h]
  · simp [h]

/-- What the code needs of the body and of the state before the request. -/
theorem sessionsFromValidKeys_iff (hx : Completed x.request) (hremote : conn.remote.length = 4)
    (hkeymsg : conn.fairplay.keymsg.length = 164) (hnodes : HasKeyNodes L x eiv ekey) :
    SessionsFromValidKeys F L conn x eiv ekey ↔
      16 ≤ eiv.length ∧ 72 ≤ ekey.length ∧ (timingPort L x).isSome ∧
        conn.fairplay.keymsglen = 164 ∧ (byteAt conn.fairplay.keymsg 12).toNat < messageModes := by
  constructor
  · rintro ⟨o, ho, hsessions⟩
    obtain ⟨keys, hkeys, -, hcalls⟩ := raopHandlerSetup_part hx ho
    have hbounds : 16 ≤ eiv.length ∧ Decryptable conn.fairplay ekey := by
      by_contra hnot
      exact not_faults_iff.mpr ⟨keys, hkeys⟩ (setupKeys_fault hnodes hkeymsg hnot)
    rw [setupKeys_created hremote hnodes hkeymsg hbounds.1 hbounds.2] at hkeys
    cases hkeys
    obtain ⟨key, port, hvalid, -⟩ | ⟨-, hleaves⟩ := hsessions
    · have hready := (decryptedKey_eq_some.mp hvalid.decrypted).1
      exact ⟨hvalid.eivLength, hvalid.ekeyLength, by rw [hvalid.timingPort]; rfl, hready,
        (hbounds.2 hready).1⟩
    · -- the first part has created the sessions
      rw [hleaves.calls] at hcalls
      cases hcalls
  · rintro ⟨heiv, hekey, hport, hready, hmode⟩
    obtain ⟨port, hport⟩ := Option.isSome_iff_exists.mp hport
    obtain ⟨key, hkey⟩ : ∃ key, decryptedKey F conn.fairplay ekey = some key :=
      ⟨_, decryptedKey_eq_some.mpr ⟨hready, rfl⟩⟩
    have hkeys := @setupKeys_created F L conn x eiv ekey hremote hnodes hkeymsg heiv
      fun _ => ⟨hmode, hekey⟩
    have hhandler := @raopHandlerSetup_eq F L conn x hx
    rw [hkeys, ok_bind] at hhandler
    obtain ⟨keys, hkeys', hconn, hcalls⟩ := raopHandlerSetup_part hx hhandler
    rw [hkeys] at hkeys'
    cases hkeys'
    refine ⟨_, hhandler, .inl ⟨key, port, ⟨heiv, hekey, hport, hkey⟩, ?_⟩⟩
    refine ⟨by rw [hconn]; rfl, by rw [hconn]; rfl, by rw [hconn]; rfl, ?_⟩
    rw [hcalls, createdPart, hport, hkey]
    rfl

end

/-! ## Every history -/

section
variable {P : Openssl} {F : Playfair} {L : Libplist} {garbage : ℕ → UInt8}

/-- The first `SETUP` creates sessions from valid keys exactly when the body is valid and the last
message of `fp-setup` that was accepted is one of the second phase with a known mode. -/
theorem setup_fromValidKeys_iff {raopPairing : Pairing} {remote : Bytes}
    (hremote : remote.length = 4) {history : List RaopExchange} {conn : RaopConnS}
    (hrun : connRun P F L garbage (connInit raopPairing remote) history = .ok conn)
    {x : RaopExchange} (hx : Completed x.request) {eiv ekey : Bytes}
    (hnodes : HasKeyNodes L x eiv ekey) :
    SessionsFromValidKeys F L conn x eiv ekey ↔
      16 ≤ eiv.length ∧ 72 ≤ ekey.length ∧ (timingPort L x).isSome ∧
        ∃ m, lastMessage history = some m ∧ m.length = 164 ∧
          (byteAt m 12).toNat < messageModes := by
  obtain ⟨hclient, hsession⟩ := connRun_session hrun
  rw [sessionsFromValidKeys_iff hx (by rw [hclient]; exact hremote) hsession.length hnodes,
    hsession.ready]
  constructor
  · rintro ⟨heiv, hekey, hport, ⟨m, hlast, hlength⟩, hmode⟩
    rw [hsession.message m hlast hlength] at hmode
    exact ⟨heiv, hekey, hport, m, hlast, hlength, hmode⟩
  · rintro ⟨heiv, hekey, hport, m, hlast, hlength, hmode⟩
    rw [← hsession.message m hlast hlength] at hmode
    exact ⟨heiv, hekey, hport, ⟨m, hlast, hlength⟩, hmode⟩

/-- A `SETUP` with an `eiv` of 16 and an `ekey` of 72 zero bytes and the `timingPort` 7010. -/
def keysBody : Bytes :=
  [98, 112, 108, 105, 115, 116, 48, 48, 211, 1, 2, 3, 4, 5, 6, 83, 101, 105, 118, 84, 101, 107, 101,
    121, 90, 116, 105, 109, 105, 110, 103, 80, 111, 114, 116, 79, 16, 16] ++ List.replicate 16 0 ++
  [79, 16, 72] ++ List.replicate 72 0 ++
  [17, 27, 98, 8, 15, 19, 24, 35, 54, 129, 0, 0, 0, 0, 0, 0, 1, 1, 0, 0, 0, 0, 0, 0, 0, 7, 0, 0, 0,
    0, 0, 0, 0, 0, 0, 0, 0, 0, 0, 0, 0, 132]

/-- The response to it: the timing port 6001 and the event port 7000. -/
def portsBody : Bytes :=
  [98, 112, 108, 105, 115, 116, 48, 48, 210, 1, 2, 3, 4, 90, 116, 105, 109, 105, 110, 103, 80, 111,
    114, 116, 89, 101, 118, 101, 110, 116, 80, 111, 114, 116, 17, 23, 113, 17, 27, 88, 8, 13, 24, 34,
    37, 0, 0, 0, 0, 0, 0, 1, 1, 0, 0, 0, 0, 0, 0, 0, 5, 0, 0, 0, 0, 0, 0, 0, 0, 0, 0, 0, 0, 0, 0, 0,
    40]

def keysRoot : Plist :=
  plistNewDict [("eiv", .data (List.replicate 16 0)), ("ekey", .data (List.replicate 72 0)),
    ("timingPort", .uint 7010)]

def keysPlist : Libplist where
  fromBin := fun body => if body = keysBody then some keysRoot else none
  toBin := fun _ => portsBody

def keysExchange : RaopExchange :=
  { plainExchange {
      method := "SETUP"
      url := ascii "rtsp://192.168.1.2/1"
      headers := [(ascii "CSeq", ascii "2")]
      body := keysBody } with timingLport := 6001 }

/-- The second phase of `fp-setup`, with mode 0. -/
def handshakeExchange : RaopExchange := plainExchange {
  method := "POST"
  url := ascii "/fp-setup"
  headers := [(ascii "CSeq", ascii "1")]
  body := [70, 80, 76, 89, 3, 1, 3, 0, 0, 0, 0, 152, 0] ++ List.replicate 151 0 }

theorem setupRoot_keysExchange : setupRoot keysPlist keysExchange = some keysRoot := by
  have hbody : plistBody keysExchange.request = keysBody :=
    List.take_of_length_le (by decide +kernel)
  rw [setupRoot, hbody]
  simp only [keysPlist, if_true]

theorem keysExchange_nodes :
    HasKeyNodes keysPlist keysExchange (List.replicate 16 0) (List.replicate 72 0) := by
  refine ⟨?_, ?_⟩
  · rw [setupRoot_keysExchange]
    rfl
  · rw [setupRoot_keysExchange]
    rfl

theorem handshakeExchange_returns : RequestReturns default (fun _ chunk _ => chunk) keysPlist
    (connInit ⟨[]⟩ [192, 168, 1, 7]) handshakeExchange := by
  intro method cseq hmethod hcseq
  cases hmethod
  have hone : cseq = ascii "1" := Option.some.inj (hcseq.symm.trans (by decide))
  have hhandler : selectHandler "POST" handshakeExchange.request.url = some .fpsetup := by decide
  rw [hone]
  refine ⟨?_, ResponseBuffer.sizesFit_of_short (le_refl 0) (by decide +kernel) (by decide +kernel)⟩
  show HandlerReturns _ _ (selectHandler "POST" handshakeExchange.request.url) _ _
  rw [hhandler]
  exact fun hlength => absurd hlength (by decide +kernel)

/-- After the second phase of `fp-setup` the sessions are created from valid keys. -/
theorem setup_fromValidKeys_handshaken :
    ∃ conn, connRun default (fun _ chunk _ => chunk) keysPlist (fun _ => 0)
        (connInit ⟨[]⟩ [192, 168, 1, 7]) [handshakeExchange] = .ok conn ∧
      SessionsFromValidKeys (fun _ chunk _ => chunk) keysPlist conn keysExchange
        (List.replicate 16 0) (List.replicate 72 0) := by
  obtain ⟨r, hr⟩ := (@connRequest_iff _ _ _ (fun _ => 0) _ _ (completed_httpRequestOf _) rfl
    rfl).mpr handshakeExchange_returns
  have hrun : connRun default (fun _ chunk _ => chunk) keysPlist (fun _ => 0)
      (connInit ⟨[]⟩ [192, 168, 1, 7]) [handshakeExchange] = .ok r.1 := by
    rw [connRun, List.foldlM_cons, hr]
    rfl
  have hport : timingPort keysPlist keysExchange = some 7010 := by
    rw [timingPort, setupRoot_keysExchange]
    rfl
  exact ⟨r.1, hrun, (setup_fromValidKeys_iff rfl hrun (completed_httpRequestOf _)
    keysExchange_nodes).mpr ⟨by simp, by simp, by rw [hport]; rfl, handshakeExchange.request.data,
      by decide +kernel, by decide +kernel, by decide +kernel⟩⟩

/-- Without `fp-setup` the sessions are created with a key that was never written. -/
theorem setup_unkeyed :
    ¬ SessionsFromValidKeys (fun _ chunk _ => chunk) keysPlist (connInit ⟨[]⟩ [192, 168, 1, 7])
      keysExchange (List.replicate 16 0) (List.replicate 72 0) := by
  intro h
  have hall := (sessionsFromValidKeys_iff (completed_httpRequestOf _) rfl rfl
    keysExchange_nodes).mp h
  exact absurd hall.2.2.2.1 (by decide)

end

end WinAirPlay.Raop
