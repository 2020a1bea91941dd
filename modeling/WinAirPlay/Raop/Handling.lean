import WinAirPlay.Raop.History

/-! # What the handlers assume

For every handler: the condition under which all its accesses are in bounds, the answer that it then
gives, and that it stops at a fault otherwise. The loops of `GET_PARAMETER` end, since every pass
moves on in the body.
-/

namespace WinAirPlay.Raop
open Foundations.ByteBuffer Foundations.CheckedMemory Utils
set_option autoImplicit false

/-- What a handler gives to the response: headers and data. -/
abbrev Answer := List (String × Bytes) × Option Bytes

def noAnswer : Answer := ([], none)

/-- The handler returns with this answer. -/
def Answers (x : Checked Outcome) (answer : Answer) : Prop :=
  ∃ o, x = .ok o ∧ (o.headers, o.responseData) = answer

/-! ## `GET /info` -/

/-- The service is announced, with a hardware address. -/
def InfoReady (x : RaopExchange) : Prop :=
  match x.dnssd with
  | none => False
  | some dnssd => 0 < dnssd.hwAddr.length ∧ 3 * dnssd.hwAddr.length < 2 ^ 31

theorem cString_append {text : Bytes} (h : 0 ∉ text) (rest : Bytes) :
    cString (text ++ 0 :: rest) = .ok text := by
  rw [cString, if_pos (by simp), List.takeWhile_append_of_pos]
  · simp
  · intro b hb
    simpa using fun hzero : b = 0 => h (hzero ▸ hb)

/-- The bytes of `AIRPLAY_PK`. -/
def airplayKey : Bytes := (hexBytes airplayPk).getD []

def infoAnswer (L : Libplist) (x : RaopExchange) : Answer :=
  match x.dnssd with
  | none => noAnswer
  | some dnssd => ([contentType "application/x-apple-binary-plist"],
      some (L.toBin (infoPlist dnssd (hwaddrText dnssd.hwAddr) airplayKey)))

theorem raopHandlerInfo_ok {L : Libplist} (conn : RaopConnS) {x : RaopExchange}
    (h : InfoReady x) : Answers (raopHandlerInfo L conn x) (infoAnswer L x) := by
  unfold InfoReady at h
  unfold raopHandlerInfo infoAnswer
  cases hdnssd : x.dnssd with
  | none =>
    rw [hdnssd] at h
    exact absurd h not_false
  | some dnssd =>
    rw [hdnssd] at h
    obtain ⟨hpos, hint⟩ := h
    have hstrlen : mulInt 3 (dnssd.hwAddr.length : ℤ) =
        .ok ((3 * dnssd.hwAddr.length : ℕ) : ℤ) := by
      rw [mulInt, if_pos (by omega)]
      push_cast
      rfl
    dsimp only
    rw [hstrlen, ok_bind, asSize, if_neg (by omega), ok_bind,
      utilsHwaddrAirplay_ok (List.length_pos_iff.mp hpos) (by omega) (by omega)
        (by rw [List.length_replicate]; omega), ok_bind,
      cString_append (zero_notMem_hwaddrText _), ok_bind, utilsParseHex_eq _ (by decide), ok_bind]
    exact ⟨_, rfl, rfl⟩

theorem raopHandlerInfo_fault {L : Libplist} (conn : RaopConnS) {x : RaopExchange}
    (h : ¬ InfoReady x) : Faults (raopHandlerInfo L conn x) := by
  unfold InfoReady at h
  unfold raopHandlerInfo
  cases hdnssd : x.dnssd with
  | none => exact ⟨_, rfl⟩
  | some dnssd =>
    rw [hdnssd] at h
    dsimp only at h ⊢
    by_cases hint : 3 * dnssd.hwAddr.length < 2 ^ 31
    · -- no address: the string is an empty block
      have hnil : dnssd.hwAddr = [] := List.length_eq_zero_iff.mp (by omega)
      rw [hnil]
      exact ⟨_, rfl⟩
    · have hoverflow : Faults (mulInt 3 dnssd.hwAddr.length) := ⟨_, if_neg (by omega)⟩
      exact hoverflow.bind _

/-! ## Pairing -/

section
variable {P : Openssl} {conn : RaopConnS} {x : RaopExchange}

def pairsetupAnswer (P : Openssl) (conn : RaopConnS) (x : RaopExchange) : Answer :=
  if intOf x.request.data.length = 32 then
    ([contentType "application/octet-stream"], some (pairingGetPublicKey P conn.raopPairing))
  else noAnswer

theorem raopHandlerPairsetup_ok (P : Openssl) (conn : RaopConnS) (x : RaopExchange) :
    Answers (raopHandlerPairsetup P conn x) (pairsetupAnswer P conn x) := by
  unfold raopHandlerPairsetup pairsetupAnswer httpRequestGetData
  by_cases hlen : intOf x.request.data.length = 32
  · rw [if_neg (not_not.mpr hlen), if_pos hlen]
    exact ⟨_, rfl, rfl⟩
  · rw [if_pos hlen, if_neg hlen]
    exact ⟨_, rfl, rfl⟩

/-- The request starts a handshake: the first phase, after pair-setup. -/
structure StartsHandshake (conn : RaopConnS) (x : RaopExchange) : Prop where
  status : conn.pairing.status = .setup
  length : intOf x.request.data.length = 68
  phase : byteAt x.request.data 0 = 1

instance (conn : RaopConnS) (x : RaopExchange) : Decidable (StartsHandshake conn x) :=
  decidable_of_iff
    (conn.pairing.status = .setup ∧ intOf x.request.data.length = 68 ∧ byteAt x.request.data 0 = 1)
    ⟨fun h => ⟨h.1, h.2.1, h.2.2⟩, fun h => ⟨h.status, h.length, h.phase⟩⟩

/-- The secret shared with the key in the body is not all zeros. -/
def SecretUsable (P : Openssl) (conn : RaopConnS) (x : RaopExchange) : Prop :=
  StartsHandshake conn x →
    P.x25519Derive x.generated (slice x.request.data 4 32) ≠ List.replicate x25519KeySize 0

/-- The session after a handshake with the keys in the body. -/
def handshaken (P : Openssl) (conn : RaopConnS) (x : RaopExchange) : PairingSession :=
  (WinAirPlay.pairingSessionHandshake P conn.pairing (slice x.request.data 4 32)
    (slice x.request.data 36 32) x.generated).2

def pairverifyAnswer (P : Openssl) (conn : RaopConnS) (x : RaopExchange) : Answer :=
  if StartsHandshake conn x then
    ([contentType "application/octet-stream"],
      some ((pairingSessionGetPublicKey P (handshaken P conn x)).2.getD [] ++
        (pairingSessionGetSignature P (handshaken P conn x)).2.getD []))
  else noAnswer

/-- Up to the derivation of the secret all accesses are in bounds. -/
theorem raopHandlerPairverify_starts (h : StartsHandshake conn x) :
    raopHandlerPairverify P conn x =
      pairingSessionHandshake P conn.pairing (slice x.request.data 4 32)
        (slice x.request.data 36 32) x.generated >>= fun r =>
          .ok { unanswered { conn with pairing := r.2 } with
            headers := [contentType "application/octet-stream"]
            responseData := some ((pairingSessionGetPublicKey P r.2).2.getD [] ++
              (pairingSessionGetSignature P r.2).2.getD []) } := by
  have hlength := h.length
  have hle := intOf_le x.request.data.length
  have hsize : ((4 : ℤ) + x25519KeySize + x25519KeySize) = 68 := rfl
  unfold raopHandlerPairverify
  dsimp only [httpRequestGetData]
  rw [if_neg (by simp [pairingSessionCheckHandshakeStatus, h.status]), if_neg (by omega),
    readByte_eq (i := 0) (n := 0) rfl (by omega), ok_bind, if_pos h.phase, if_neg (by omega),
    @readRange_eq x.request.data 4 x25519KeySize 4 32 rfl rfl (by omega), ok_bind,
    @readRange_eq x.request.data (4 + x25519KeySize) x25519KeySize 36 32 rfl rfl (by omega),
    ok_bind]

/-- A request that starts no handshake is not answered: the check at the start refuses a session
that is past pair-setup, and the second phase needs one. -/
theorem raopHandlerPairverify_other (h : ¬ StartsHandshake conn x) :
    ∃ o, raopHandlerPairverify P conn x = .ok o ∧ o.conn = conn ∧
      (o.headers, o.responseData) = noAnswer := by
  have hle := intOf_le x.request.data.length
  have hsize : ((4 : ℤ) + x25519KeySize + x25519KeySize) = 68 := rfl
  have hsig : ((4 : ℤ) + pairingSigSize) = 68 := rfl
  unfold raopHandlerPairverify
  dsimp only [httpRequestGetData]
  by_cases hstatus : conn.pairing.status = .setup
  · rw [if_neg (by simp [pairingSessionCheckHandshakeStatus, hstatus])]
    by_cases hshort : intOf x.request.data.length < 4
    · rw [if_pos hshort]
      exact ⟨_, rfl, rfl, rfl⟩
    · rw [if_neg hshort, readByte_eq (i := 0) (n := 0) rfl (by omega), ok_bind]
      by_cases hone : byteAt x.request.data 0 = 1
      · have hlength : intOf x.request.data.length ≠ 68 := fun hlength =>
          h ⟨hstatus, hlength, hone⟩
        rw [if_pos hone, if_pos (by omega)]
        exact ⟨_, rfl, rfl, rfl⟩
      · rw [if_neg hone]
        by_cases hzero : byteAt x.request.data 0 = 0
        · rw [if_pos hzero]
          by_cases hlength : intOf x.request.data.length = 68
          · have hfinish : pairingSessionFinish P conn.pairing (slice x.request.data 4 64) =
                (-1, conn.pairing) := if_pos (by simp [hstatus])
            rw [if_neg (by omega),
              @readRange_eq x.request.data 4 pairingSigSize 4 64 rfl rfl (by omega), ok_bind,
              hfinish, if_pos (show (-1 : ℤ) ≠ 0 by decide)]
            exact ⟨_, rfl, rfl, rfl⟩
          · rw [if_pos (by omega)]
            exact ⟨_, rfl, rfl, rfl⟩
        · rw [if_neg hzero]
          exact ⟨_, rfl, rfl, rfl⟩
  · rw [if_pos (by simp [pairingSessionCheckHandshakeStatus, hstatus])]
    exact ⟨_, rfl, rfl, rfl⟩

theorem raopHandlerPairverify_ok (h : SecretUsable P conn x) :
    Answers (raopHandlerPairverify P conn x) (pairverifyAnswer P conn x) := by
  unfold pairverifyAnswer
  by_cases hstarts : StartsHandshake conn x
  · rw [if_pos hstarts, raopHandlerPairverify_starts hstarts, pairingSessionHandshake,
      if_neg (by simp [hstarts.status]), x25519DeriveSecret, if_neg (h hstarts), ok_bind, ok_bind]
    exact ⟨_, rfl, rfl⟩
  · obtain ⟨o, ho, -, hanswer⟩ := @raopHandlerPairverify_other P conn x hstarts
    rw [if_neg hstarts]
    exact ⟨o, ho, hanswer⟩

theorem raopHandlerPairverify_fault (h : ¬ SecretUsable P conn x) :
    Faults (raopHandlerPairverify P conn x) := by
  obtain ⟨hstarts, hzero⟩ := Classical.not_imp.mp h
  rw [raopHandlerPairverify_starts hstarts, pairingSessionHandshake,
    if_neg (by simp [hstarts.status]), x25519DeriveSecret, if_pos (not_not.mp hzero)]
  exact ⟨_, rfl⟩

/-! ## FairPlay -/

/-- A first-phase message asks for a reply that exists. -/
def ReplyExists (x : RaopExchange) : Prop :=
  intOf x.request.data.length = 16 → ReplyKnown x.request.data

def fpsetupAnswer (conn : RaopConnS) (x : RaopExchange) : Answer :=
  if intOf x.request.data.length = 16 then
    ([contentType "application/octet-stream"], (setupPhase conn.fairplay x.request.data).2)
  else if intOf x.request.data.length = 164 then
    ([contentType "application/octet-stream"], (handshakePhase conn.fairplay x.request.data).2)
  else noAnswer

theorem raopHandlerFpsetup_ok (h : ReplyExists x) :
    Answers (raopHandlerFpsetup conn x) (fpsetupAnswer conn x) := by
  have hle := intOf_le x.request.data.length
  unfold raopHandlerFpsetup fpsetupAnswer
  dsimp only [httpRequestGetData]
  by_cases hsetup : intOf x.request.data.length = 16
  · rw [if_pos hsetup, if_pos hsetup, fairplaySetup_ok _ (by omega) (h hsetup), ok_bind]
    exact ⟨_, rfl, rfl⟩
  · rw [if_neg hsetup, if_neg hsetup]
    by_cases hhandshake : intOf x.request.data.length = 164
    · rw [if_pos hhandshake, if_pos hhandshake, fairplayHandshake_ok _ (by omega), ok_bind]
      exact ⟨_, rfl, rfl⟩
    · rw [if_neg hhandshake, if_neg hhandshake]
      exact ⟨_, rfl, rfl⟩

theorem raopHandlerFpsetup_fault (h : ¬ ReplyExists x) : Faults (raopHandlerFpsetup conn x) := by
  obtain ⟨hsetup, hreply⟩ := Classical.not_imp.mp h
  have hle := intOf_le x.request.data.length
  unfold raopHandlerFpsetup
  dsimp only [httpRequestGetData]
  rw [if_pos hsetup]
  exact (fairplaySetup_fault _ (by omega) hreply).bind _

end

/-! ## `SETUP` -/

section
variable (F : Playfair) (L : Libplist)

def setupRoot (x : RaopExchange) : Option Plist := L.fromBin (plistBody x.request)

/-- A body with the data nodes `eiv` and `ekey`. -/
structure HasKeyNodes (x : RaopExchange) (eiv ekey : Bytes) : Prop where
  eiv : plistGetDataVal (plistDictGetItem (setupRoot L x) "eiv") = some eiv
  ekey : plistGetDataVal (plistDictGetItem (setupRoot L x) "ekey") = some ekey

/-- The value of `timingPort`, if it is an unsigned node. -/
def timingPort (x : RaopExchange) : Option ℕ :=
  plistGetUintVal (plistDictGetItem (setupRoot L x) "timingPort")

/-- The first part when it creates the sessions. -/
def createdPart (conn : RaopConnS) (x : RaopExchange) (eiv ekey : Bytes) : SetupPart where
  conn := { conn with
    raopNtp := some conn.allocated
    raopRtp := some (conn.allocated + 1)
    raopRtpMirror := some (conn.allocated + 2)
    allocated := conn.allocated + 3 }
  items := [("timingPort", .uint x.timingLport), ("eventPort", .uint x.port)]
  disconnect := false
  calls := [.ntpInit conn.remote ((timingPort L x).map (· % 2 ^ 16)), .ntpStart,
    .rtpInit conn.remote (decryptedKey F conn.fairplay ekey) (slice eiv 0 16)
      conn.pairing.ecdhSecret,
    .mirrorInit conn.remote (decryptedKey F conn.fairplay ekey) conn.pairing.ecdhSecret]

/-- The first part when all its accesses are in bounds. -/
def keysPart (conn : RaopConnS) (x : RaopExchange) : SetupPart :=
  match plistGetDataVal (plistDictGetItem (setupRoot L x) "eiv"),
    plistGetDataVal (plistDictGetItem (setupRoot L x) "ekey") with
  | some eiv, some ekey => createdPart F L conn x eiv ekey
  | _, _ => ⟨conn, [], false, []⟩

def streamsPart (conn : RaopConnS) (x : RaopExchange) : SetupPart :=
  setupStreams conn x (transportUdp (WinAirPlay.httpRequestGetHeader x.request "Transport"))
    (setupRoot L x)

/-- The IV can be read and the key decrypted, if the body has their nodes. -/
def KeysReadable (conn : RaopConnS) (x : RaopExchange) : Prop :=
  ∀ eiv ekey, HasKeyNodes L x eiv ekey → 16 ≤ eiv.length ∧ Decryptable conn.fairplay ekey

def setupAnswer (conn : RaopConnS) (x : RaopExchange) : Answer :=
  let keys := keysPart F L conn x
  ([contentType "application/x-apple-binary-plist"],
    some (L.toBin (plistNewDict (keys.items ++ (streamsPart L keys.conn x).items))))

end

section
variable {F : Playfair} {L : Libplist} {conn : RaopConnS} {x : RaopExchange} {eiv ekey : Bytes}

theorem setupKeys_created (hremote : conn.remote.length = 4) (hnodes : HasKeyNodes L x eiv ekey)
    (hkeymsg : conn.fairplay.keymsg.length = 164) (heiv : 16 ≤ eiv.length)
    (hdecrypt : Decryptable conn.fairplay ekey) :
    setupKeys F conn x (setupRoot L x) = .ok (createdPart F L conn x eiv ekey) := by
  unfold setupKeys
  rw [hnodes.eiv, hnodes.ekey]
  dsimp only
  rw [@readRange_eq eiv 0 16 0 16 rfl rfl (by omega), ok_bind,
    fairplayDecrypt_ok F hkeymsg hdecrypt, ok_bind,
    if_neg (by simp [raopNtpParseRemoteAddress, hremote])]
  rfl

theorem setupKeys_fault (hnodes : HasKeyNodes L x eiv ekey)
    (hkeymsg : conn.fairplay.keymsg.length = 164)
    (h : ¬ (16 ≤ eiv.length ∧ Decryptable conn.fairplay ekey)) :
    Faults (setupKeys F conn x (setupRoot L x)) := by
  unfold setupKeys
  rw [hnodes.eiv, hnodes.ekey]
  dsimp only
  by_cases heiv : 16 ≤ eiv.length
  · rw [@readRange_eq eiv 0 16 0 16 rfl rfl (by omega), ok_bind]
    exact (fairplayDecrypt_fault F hkeymsg fun hdecrypt => h ⟨heiv, hdecrypt⟩).bind _
  · exact (readRange_fault (by omega)).bind _

theorem setupKeys_ok (hremote : conn.remote.length = 4)
    (hkeymsg : conn.fairplay.keymsg.length = 164) (h : KeysReadable L conn x) :
    setupKeys F conn x (setupRoot L x) = .ok (keysPart F L conn x) := by
  unfold keysPart
  split
  · next eiv ekey heiv hekey =>
    obtain ⟨hlong, hdecrypt⟩ := h eiv ekey ⟨heiv, hekey⟩
    exact setupKeys_created hremote ⟨heiv, hekey⟩ hkeymsg hlong hdecrypt
  · next hnone =>
    unfold setupKeys
    split
    · next eiv ekey heiv hekey => exact absurd hekey (hnone eiv ekey heiv)
    · rfl

theorem raopHandlerSetup_eq (hx : Completed x.request) : raopHandlerSetup F L conn x =
    setupKeys F conn x (setupRoot L x) >>= fun keys =>
      let streams := streamsPart L keys.conn x
      .ok {
        conn := streams.conn
        headers := [contentType "application/x-apple-binary-plist"]
        disconnect := keys.disconnect || streams.disconnect
        responseData := some (L.toBin (plistNewDict (keys.items ++ streams.items)))
        calls := remoteControl conn (WinAirPlay.httpRequestGetHeader x.request "DACP-ID")
          (WinAirPlay.httpRequestGetHeader x.request "Active-Remote") ++ keys.calls ++
            streams.calls } := by
  unfold raopHandlerSetup
  rw [hx.header, ok_bind, hx.header, ok_bind, hx.header, ok_bind]
  rfl

theorem raopHandlerSetup_ok (hx : Completed x.request) (hremote : conn.remote.length = 4)
    (hkeymsg : conn.fairplay.keymsg.length = 164) (h : KeysReadable L conn x) :
    Answers (raopHandlerSetup F L conn x) (setupAnswer F L conn x) := by
  rw [raopHandlerSetup_eq hx, setupKeys_ok hremote hkeymsg h, ok_bind]
  exact ⟨_, rfl, rfl⟩

theorem raopHandlerSetup_fault (hx : Completed x.request)
    (hkeymsg : conn.fairplay.keymsg.length = 164) (h : ¬ KeysReadable L conn x) :
    Faults (raopHandlerSetup F L conn x) := by
  obtain ⟨eiv, ekey, hnodes, hnot⟩ : ∃ eiv ekey, HasKeyNodes L x eiv ekey ∧
      ¬ (16 ≤ eiv.length ∧ Decryptable conn.fairplay ekey) := by
    by_contra hall
    exact h fun eiv ekey hnodes => by
      by_contra hnot
      exact hall ⟨eiv, ekey, hnodes, hnot⟩
  rw [raopHandlerSetup_eq hx]
  exact (setupKeys_fault hnodes hkeymsg hnot).bind _

end

/-! ## Parameters -/

/-- The bytes that `datalen` counts. -/
def countedBody (request : HttpRequest) : Bytes :=
  request.data.take (intOf request.data.length).toNat

/-- One of the lines at the start of the text asks for the volume, within `passes` lines. -/
def volumeAsked : ℕ → Bytes → Bool
  | 0, _ => false
  | passes + 1, text =>
    if text.take 8 = ascii "volume\r\n" then true
    else
      let tail := text.dropWhile (· ≠ 13)
      if tail.take 2 = ascii "\r\n" then volumeAsked passes (tail.drop 2) else false

/-- The scan stops at the first carriage return; `passes` bounds the bytes that are left. -/
theorem findCr_ok {data : Bytes} {n : ℕ} (hn : n ≤ data.length) {passes i : ℕ} (hi : i ≤ n)
    (hpasses : n - i < passes) :
    findCr data n passes i =
      .ok ((i + (((data.take n).drop i).takeWhile (· ≠ 13)).length : ℕ) : ℤ) := by
  induction passes generalizing i with
  | zero => omega
  | succ passes ih =>
    rw [findCr]
    by_cases hend : i = n
    · subst hend
      rw [if_neg (by omega), List.drop_of_length_le (by rw [List.length_take]; omega)]
      rfl
    · have hlt : i < (data.take n).length := by rw [List.length_take]; omega
      have hbyte : byteAt data i = (data.take n)[i] := by
        rw [byteAt, List.getD_eq_getElem _ _ (by omega), List.getElem_take]
      rw [if_pos (by omega), readByte_eq (i := (i : ℤ)) rfl (by omega), ok_bind,
        List.drop_eq_getElem_cons hlt, ← hbyte]
      by_cases hcr : byteAt data i = 13
      · rw [if_pos hcr, List.takeWhile_cons_of_neg (by simp [hcr])]
        rfl
      · have hnext := ih (show i + 1 ≤ n by omega) (by omega)
        push_cast at hnext
        rw [if_neg hcr, hnext, List.takeWhile_cons_of_pos (by simp [hcr]), List.length_cons]
        congr 1
        push_cast
        ring

/-- The comparison looks at the bytes up to `datalen` only. -/
theorem startsWith_ok {data : Bytes} {n i : ℕ} (hn : n ≤ data.length) (hi : i ≤ n)
    (text : Bytes) :
    startsWith data n i text = .ok (decide (((data.take n).drop i).take text.length = text)) := by
  rw [startsWith]
  by_cases hlong : (text.length : ℤ) ≤ n - i
  · rw [if_pos hlong, @readRange_eq data i text.length i text.length rfl rfl (by omega), ok_bind,
      slice, List.drop_take, List.take_take, Nat.min_eq_left (by omega)]
  · rw [if_neg hlong]
    congr 1
    refine (decide_eq_false fun heq => ?_).symm
    have hlength := congrArg List.length heq
    simp only [List.length_take, List.length_drop] at hlength
    omega

theorem drop_length_takeWhile (p : UInt8 → Bool) (text : Bytes) :
    text.drop (text.takeWhile p).length = text.dropWhile p := by
  have h := @List.drop_left _ (text.takeWhile p) (text.dropWhile p)
  rwa [List.takeWhile_append_dropWhile] at h

/-- Every pass that goes on leaves fewer bytes. -/
theorem findVolume_ok {data : Bytes} {n : ℕ} (hn : n ≤ data.length) {passes i : ℕ} (hi : i ≤ n)
    (hpasses : n - i < passes) :
    findVolume data n passes i = .ok (volumeAsked passes ((data.take n).drop i)) := by
  have hvolumeLength : (ascii "volume\r\n").length = 8 := rfl
  have hcrlfLength : (ascii "\r\n").length = 2 := rfl
  induction passes generalizing i with
  | zero => omega
  | succ passes ih =>
    have hlength : ((data.take n).drop i).length = n - i := by
      rw [List.length_drop, List.length_take]
      omega
    rw [findVolume, volumeAsked]
    by_cases hend : i = n
    · have hnil : (data.take n).drop i = [] := List.length_eq_zero_iff.mp (by omega)
      rw [if_neg (by omega), hnil]
      rfl
    · have hcr := findCr_ok hn hi (show n - i < n + 1 by omega)
      have hdrop : ∀ k, (data.take n).drop (i + k) = ((data.take n).drop i).drop k := fun k => by
        rw [List.drop_drop]
      rw [if_pos (by omega), startsWith_ok hn hi, ok_bind, hvolumeLength, Int.toNat_natCast, hcr]
      generalize (data.take n).drop i = text at hlength hdrop
      by_cases hvolume : text.take 8 = ascii "volume\r\n"
      · rw [if_pos (decide_eq_true hvolume), if_pos hvolume]
      · have hsplit := congrArg List.length (@List.takeWhile_append_dropWhile _ (· ≠ (13 : UInt8)) text)
        rw [List.length_append] at hsplit
        have htail : (data.take n).drop (i + (text.takeWhile (· ≠ 13)).length) =
            text.dropWhile (· ≠ 13) := by
          rw [hdrop, drop_length_takeWhile]
        rw [if_neg (by simpa using hvolume), if_neg hvolume, ok_bind,
          startsWith_ok hn (by omega), ok_bind, htail, hcrlfLength]
        dsimp only
        by_cases hcrlf : (text.dropWhile (· ≠ 13)).take 2 = ascii "\r\n"
        · have htwo := congrArg List.length hcrlf
          rw [hcrlfLength, List.length_take] at htwo
          have hnext := ih (show i + (text.takeWhile (· ≠ 13)).length + 2 ≤ n by omega) (by omega)
          rw [← List.drop_drop, htail] at hnext
          push_cast at hnext ⊢
          rw [if_pos (decide_eq_true hcrlf), if_pos hcrlf, hnext]
        · rw [if_neg (by simpa using hcrlf), if_neg hcrlf]

/-- The loop ends within the passes that it is given. -/
theorem findVolume_int {data : Bytes} {datalen : ℤ} (hle : datalen ≤ data.length) :
    findVolume data datalen (datalen.toNat + 1) 0 =
      .ok (volumeAsked (datalen.toNat + 1) (data.take datalen.toNat)) := by
  by_cases hneg : datalen < 0
  · have hzero : datalen.toNat = 0 := Int.toNat_eq_zero.mpr hneg.le
    rw [hzero, findVolume, if_neg (by omega), List.take_zero]
    rfl
  · obtain ⟨n, rfl⟩ := Int.eq_ofNat_of_zero_le (not_lt.mp hneg)
    rw [Int.toNat_natCast]
    exact @findVolume_ok data n (by omega) (n + 1) 0 (Nat.zero_le n) (by omega)

theorem findVolume_counted (request : HttpRequest) :
    findVolume request.data (intOf request.data.length) ((intOf request.data.length).toNat + 1) 0 =
      .ok (volumeAsked ((intOf request.data.length).toNat + 1) (countedBody request)) :=
  findVolume_int (intOf_le request.data.length)

/-- There is a `Content-Type`. -/
def HasContentType (x : RaopExchange) : Prop :=
  WinAirPlay.httpRequestGetHeader x.request "Content-Type" ≠ none

def getParameterAnswer (x : RaopExchange) : Answer :=
  if WinAirPlay.httpRequestGetHeader x.request "Content-Type" = some (ascii "text/parameters") ∧
      volumeAsked ((intOf x.request.data.length).toNat + 1) (countedBody x.request) then
    ([contentType "text/parameters"], some (ascii "volume: 0.0\r\n"))
  else noAnswer

section
variable {conn : RaopConnS} {x : RaopExchange}

theorem raopHandlerGetParameter_ok (hx : Completed x.request) (h : HasContentType x) :
    Answers (raopHandlerGetParameter conn x) (getParameterAnswer x) := by
  obtain ⟨header, hheader⟩ := Option.ne_none_iff_exists'.mp h
  unfold raopHandlerGetParameter getParameterAnswer
  rw [hx.header, ok_bind, hheader, requireHeader, ok_bind]
  dsimp only [httpRequestGetData]
  by_cases htext : header = ascii "text/parameters"
  · rw [if_pos htext, findVolume_counted, ok_bind]
    by_cases hvolume : volumeAsked ((intOf x.request.data.length).toNat + 1) (countedBody x.request)
    · rw [if_pos hvolume, if_pos ⟨by rw [htext], hvolume⟩]
      exact ⟨_, rfl, rfl⟩
    · rw [if_neg hvolume, if_neg fun hboth => hvolume hboth.2]
      exact ⟨_, rfl, rfl⟩
  · rw [if_neg htext, if_neg fun hboth => htext (Option.some.inj hboth.1)]
    exact ⟨_, rfl, rfl⟩

theorem raopHandlerGetParameter_fault (hx : Completed x.request) (h : ¬ HasContentType x) :
    Faults (raopHandlerGetParameter conn x) := by
  unfold raopHandlerGetParameter
  rw [hx.header, ok_bind, not_not.mp h]
  exact ⟨_, rfl⟩

/-- `datalen + 1` is an `int`, and a body that is copied has a length. -/
structure ParametersFit (conn : RaopConnS) (x : RaopExchange) : Prop where
  terminator : intOf x.request.data.length ≠ 2 ^ 31 - 1
  copied : conn.raopRtp.isSome → intOf x.request.data.length ≠ -1

/-- There is a `Content-Type`, and a text of parameters fits. -/
def ParametersReadable (conn : RaopConnS) (x : RaopExchange) : Prop :=
  ∃ header, WinAirPlay.httpRequestGetHeader x.request "Content-Type" = some header ∧
    (header = ascii "text/parameters" → ParametersFit conn x)

/-- The terminator is found from every place in the text on. -/
theorem cString_drop {text : Bytes} {k : ℕ} (hk : k ≤ text.length) :
    cString ((text ++ [0]).drop k) = .ok ((text.drop k).takeWhile (· ≠ 0)) := by
  rw [List.drop_append_of_le_length hk, cString, if_pos (by simp), List.takeWhile_append]
  split
  · next hall =>
    rw [(List.takeWhile_sublist _).eq_of_length hall]
    exact congrArg Except.ok (List.append_nil _)
  · rfl

/-- A label that is as long as the part it is compared with meets no terminator there. -/
theorem take_terminated {text label : Bytes} {k : ℕ} (hlabel : label.length = k) :
    k ≤ text.length ∧ (text ++ [0]).take k = label ↔ text.take k = label := by
  constructor
  · rintro ⟨hfits, h⟩
    rwa [List.take_append_of_le_length hfits] at h
  · intro h
    have hfits : k ≤ text.length := by
      have hlength := congrArg List.length h
      rw [List.length_take] at hlength
      omega
    exact ⟨hfits, by rwa [List.take_append_of_le_length hfits]⟩

/-- The calls for a text of parameters. -/
def parameterCalls (conn : RaopConnS) (body : Bytes) : List MediaCall :=
  if conn.raopRtp.isSome then
    if body.take 8 = ascii "volume: " then [.setVolume ((body.drop 8).takeWhile (· ≠ 0))]
    else if body.take 10 = ascii "progress: " then
      [.setProgress ((body.drop 10).takeWhile (· ≠ 0))]
    else []
  else []

theorem parameterCalls_nil (conn : RaopConnS) : parameterCalls conn [] = [] := by
  unfold parameterCalls
  split
  · rw [if_neg (by decide), if_neg (by decide)]
  · rfl

theorem setParameters_eq (h : ParametersFit conn x) :
    setParameters conn x.request.data (intOf x.request.data.length) =
      .ok (parameterCalls conn (countedBody x.request)) := by
  have hle := intOf_le x.request.data.length
  have hge := intOf_ge x.request.data.length
  have hlt := intOf_lt x.request.data.length
  obtain ⟨hterminator, hcopied⟩ := h
  unfold countedBody
  generalize intOf x.request.data.length = datalen at *
  have hadd : addInt datalen 1 = .ok (datalen + 1) := by
    rw [addInt, if_pos (by omega)]
  rw [setParameters, hadd, ok_bind, calloc]
  by_cases hnegative : datalen + 1 < 0
  · have hempty : datalen.toNat = 0 := by omega
    rw [if_pos hnegative, hempty, List.take_zero, parameterCalls_nil]
  rw [if_neg hnegative]
  dsimp only
  by_cases hcopy : x.request.data ≠ [] ∧ conn.raopRtp.isSome
  · have hdatalen := hcopied hcopy.2
    obtain ⟨n, rfl⟩ := Int.eq_ofNat_of_zero_le (show 0 ≤ datalen by omega)
    have hread : readRange x.request.data 0 n = .ok (x.request.data.take n) := by
      rw [@readRange_eq x.request.data 0 n 0 n rfl rfl (by omega), slice, List.drop_zero]
    have htake : (x.request.data.take n).length = n := by rw [List.length_take]; omega
    have hblock : writeRange (List.replicate (n + 1) 0) 0 (x.request.data.take n) =
        .ok (x.request.data.take n ++ [0]) := by
      rw [@writeRange_eq _ _ 0 0 rfl (by rw [htake, List.length_replicate]; omega), writeAt,
        htake, List.take_zero, List.nil_append, Nat.zero_add, List.drop_replicate,
        Nat.add_sub_cancel_left]
      rfl
    have hsize : ((n : ℤ) + 1).toNat = n + 1 := rfl
    have height : (ascii "volume: ").length = 8 := rfl
    have hten : (ascii "progress: ").length = 10 := rfl
    rw [if_pos hcopy, hread, ok_bind, hsize, hblock, ok_bind, parameterCalls, if_pos hcopy.2,
      Int.toNat_natCast]
    by_cases hvolume : (x.request.data.take n).take 8 = ascii "volume: "
    · obtain ⟨hfits, hlabel⟩ := (take_terminated height).mpr hvolume
      rw [if_pos ⟨by omega, hlabel⟩, if_pos hvolume, cString_drop hfits, ok_bind]
    rw [if_neg fun hboth => hvolume ((take_terminated height).mp ⟨by omega, hboth.2⟩),
      if_neg hvolume]
    by_cases hprogress : (x.request.data.take n).take 10 = ascii "progress: "
    · obtain ⟨hfits, hlabel⟩ := (take_terminated hten).mpr hprogress
      rw [if_pos ⟨by omega, hlabel⟩, if_pos hprogress, cString_drop hfits, ok_bind]
    · rw [if_neg fun hboth => hprogress ((take_terminated hten).mp ⟨by omega, hboth.2⟩),
        if_neg hprogress]
  · rw [if_neg hcopy]
    by_cases hrtp : conn.raopRtp.isSome
    · rw [not_not.mp fun hne => hcopy ⟨hne, hrtp⟩, List.take_nil, parameterCalls_nil]
    · rw [parameterCalls, if_neg hrtp]

theorem setParameters_ok (h : ParametersFit conn x) :
    ∃ calls, setParameters conn x.request.data (intOf x.request.data.length) = .ok calls :=
  ⟨_, setParameters_eq h⟩

theorem setParameters_fault (h : ¬ ParametersFit conn x) :
    Faults (setParameters conn x.request.data (intOf x.request.data.length)) := by
  rw [setParameters]
  by_cases hterminator : intOf x.request.data.length = 2 ^ 31 - 1
  · have hoverflow : Faults (addInt (intOf x.request.data.length) 1) := ⟨_, if_neg (by omega)⟩
    exact hoverflow.bind _
  · obtain ⟨hrtp, hminus⟩ : conn.raopRtp.isSome ∧ intOf x.request.data.length = -1 := by
      by_contra hnot
      exact h ⟨hterminator, fun hrtp hminus => hnot ⟨hrtp, hminus⟩⟩
    have hne : x.request.data ≠ [] := by
      intro hnil
      rw [hnil] at hminus
      exact absurd hminus (by decide)
    rw [hminus]
    -- `calloc(1, 0)` is not `NULL`, and -1 is no size for the copy
    rw [addInt, if_pos (by omega), ok_bind, calloc, if_neg (by omega)]
    dsimp only
    rw [if_pos ⟨hne, hrtp⟩]
    exact ⟨_, rfl⟩

theorem raopHandlerSetParameter_ok (hx : Completed x.request) (h : ParametersReadable conn x) :
    Answers (raopHandlerSetParameter conn x) noAnswer := by
  obtain ⟨header, hheader, hfit⟩ := h
  unfold raopHandlerSetParameter
  rw [hx.header, ok_bind, hheader, requireHeader, ok_bind]
  dsimp only [httpRequestGetData]
  by_cases htext : header = ascii "text/parameters"
  · obtain ⟨calls, hcalls⟩ := setParameters_ok (hfit htext)
    rw [if_pos htext, hcalls, ok_bind]
    exact ⟨_, rfl, rfl⟩
  · rw [if_neg htext]
    split
    · exact ⟨_, rfl, rfl⟩
    split
    · exact ⟨_, rfl, rfl⟩
    · exact ⟨_, rfl, rfl⟩

theorem raopHandlerSetParameter_fault (hx : Completed x.request)
    (h : ¬ ParametersReadable conn x) : Faults (raopHandlerSetParameter conn x) := by
  unfold raopHandlerSetParameter
  rw [hx.header, ok_bind]
  cases hheader : WinAirPlay.httpRequestGetHeader x.request "Content-Type" with
  | none => exact ⟨_, rfl⟩
  | some header =>
    have hnot : header = ascii "text/parameters" ∧ ¬ ParametersFit conn x := by
      by_contra hnot
      exact h ⟨header, hheader, fun htext => by
        by_contra hfit
        exact hnot ⟨htext, hfit⟩⟩
    rw [requireHeader, ok_bind]
    dsimp only [httpRequestGetData]
    rw [if_pos hnot.1]
    exact (setParameters_fault hnot.2).bind _

end

/-! ## Every handler -/

section
variable (P : Openssl) (F : Playfair) (L : Libplist)

/-- What a handler assumes of its request and of the connection. -/
def HandlerReturns (handler : Option RaopHandler) (conn : RaopConnS) (x : RaopExchange) : Prop :=
  match handler with
  | some .info => InfoReady x
  | some .pairverify => SecretUsable P conn x
  | some .fpsetup => ReplyExists x
  | some .setup => KeysReadable L conn x
  | some .getParameter => HasContentType x
  | some .setParameter => ParametersReadable conn x
  | _ => True

def answerOf (handler : Option RaopHandler) (conn : RaopConnS) (x : RaopExchange) : Answer :=
  match handler with
  | some .info => infoAnswer L x
  | some .pairsetup => pairsetupAnswer P conn x
  | some .pairverify => pairverifyAnswer P conn x
  | some .fpsetup => fpsetupAnswer conn x
  | some .options => ((raopHandlerOptions conn).headers, none)
  | some .setup => setupAnswer F L conn x
  | some .getParameter => getParameterAnswer x
  | some .record => ((raopHandlerRecord conn).headers, none)
  | _ => noAnswer

variable {P F L} {conn : RaopConnS} {x : RaopExchange}

theorem flushRequest_ok (hx : Completed x.request) : Answers (flushRequest conn x) noAnswer := by
  unfold flushRequest
  rw [hx.header, ok_bind]
  exact ⟨_, rfl, rfl⟩

theorem teardownRequest_ok (conn : RaopConnS) (x : RaopExchange) :
    Answers (.ok (teardownRequest conn x)) noAnswer := by
  refine ⟨_, rfl, ?_⟩
  unfold teardownRequest
  split_ifs
  all_goals rfl

theorem runHandler_ok (hx : Completed x.request) (hremote : conn.remote.length = 4)
    (hkeymsg : conn.fairplay.keymsg.length = 164) {handler : Option RaopHandler}
    (h : HandlerReturns P L handler conn x) :
    Answers (runHandler P F L handler conn x) (answerOf P F L handler conn x) := by
  match handler with
  | some .info => exact raopHandlerInfo_ok conn h
  | some .pairsetup => exact raopHandlerPairsetup_ok P conn x
  | some .pairverify => exact raopHandlerPairverify_ok h
  | some .fpsetup => exact raopHandlerFpsetup_ok h
  | some .setup => exact raopHandlerSetup_ok hx hremote hkeymsg h
  | some .getParameter => exact raopHandlerGetParameter_ok hx h
  | some .setParameter => exact raopHandlerSetParameter_ok hx h
  | some .flush => exact flushRequest_ok hx
  | some .teardown => exact teardownRequest_ok conn x
  | some .options | some .feedback | some .record | none => exact ⟨_, rfl, rfl⟩

theorem runHandler_fault (hx : Completed x.request)
    (hkeymsg : conn.fairplay.keymsg.length = 164) {handler : Option RaopHandler}
    (h : ¬ HandlerReturns P L handler conn x) : Faults (runHandler P F L handler conn x) := by
  match handler with
  | some .info => exact raopHandlerInfo_fault conn h
  | some .pairverify => exact raopHandlerPairverify_fault h
  | some .fpsetup => exact raopHandlerFpsetup_fault h
  | some .setup => exact raopHandlerSetup_fault hx hkeymsg h
  | some .getParameter => exact raopHandlerGetParameter_fault hx h
  | some .setParameter => exact raopHandlerSetParameter_fault hx h
  | some .pairsetup | some .flush | some .teardown | some .options | some .feedback
  | some .record | none => exact absurd trivial h

end

end WinAirPlay.Raop
