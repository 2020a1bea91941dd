import WinAirPlay.Plist.Libplist
import WinAirPlay.Raop.Requests

/-! # The bodies of `/info` and `SETUP`

The handlers over the bytes that are sent: what a client encodes is what the handler sees, and what
the handler answers is what the client decodes.
-/

namespace WinAirPlay.Raop
open Foundations Foundations.ByteBuffer Foundations.CheckedMemory Foundations.Unicode Utils
set_option autoImplicit false

/-- Printable or not, but neither NUL nor beyond ASCII. -/
def PlainByte (x : UInt8) : Prop := 0 < x.toNat ∧ x.toNat < 0x80

instance (x : UInt8) : Decidable (PlainByte x) := inferInstanceAs (Decidable (_ ∧ _))

theorem stringOk_of_plain {b : Bytes} (h : ∀ x ∈ b, PlainByte x) (hlen : 4 * (b.length + 1) < 2 ^ 31) :
    StringOk b := by
  refine ⟨?_, fun hzero => ?_, hlen⟩
  · clear hlen
    induction b with
    | nil => exact ⟨[], rfl⟩
    | cons x b ih =>
      obtain ⟨hx, hrest⟩ := List.forall_mem_cons.mp h
      obtain ⟨text, rfl⟩ := ih hrest
      have hplain := hx.2
      obtain ⟨c, hc⟩ := exists_scalar (v := x.toNat) (.inl (by omega))
      refine ⟨c :: text, ?_⟩
      rw [utf8_cons, utf8EncodeChar_one (by omega), hc, UInt8.ofNat_toNat]
      rfl
  · have hpos := (h 0 hzero).1
    exact absurd hpos (by decide)

/-- A literal that can be a key or a value of an answer. -/
def PlainLiteral (s : String) : Prop := (∀ x ∈ ascii s, PlainByte x) ∧ (ascii s).length < 1000

-- Decided along the bytes of the literal; trying all the values of a byte is too much to evaluate.
instance (s : String) : Decidable (PlainLiteral s) :=
  @instDecidableAnd _ _ (List.decidableBAll PlainByte (ascii s)) inferInstance

theorem PlainLiteral.stringOk {s : String} (h : PlainLiteral s) : StringOk (ascii s) :=
  stringOk_of_plain h.1 (by have := h.2; omega)

theorem encodable_literal {s : String} (h : PlainLiteral s) : Encodable (plistNewString s) :=
  .string _ h.stringOk

theorem encodable_newDict {items : List (String × Plist)}
    (hkey : ∀ s ∈ items.map Prod.fst, PlainLiteral s) (hvalue : ∀ item ∈ items, Encodable item.2) :
    Encodable (plistNewDict items) := by
  refine .dict _ (fun item hitem => ?_) fun item hitem => ?_
  · obtain ⟨item, hmem, rfl⟩ := List.mem_map.mp hitem
    exact (hkey _ (List.mem_map_of_mem hmem)).stringOk
  · obtain ⟨item, hmem, rfl⟩ := List.mem_map.mp hitem
    exact hvalue item hmem

/-! ## `/info` -/

theorem hwaddrText_plain (hwaddr : Bytes) : ∀ x ∈ hwaddrText hwaddr, PlainByte x := by
  intro x hx
  obtain ⟨b, -, hb⟩ := List.mem_flatMap.mp ((List.dropLast_sublist _).subset hx)
  have hdigit : ∀ n : ℕ, n < 16 → PlainByte (digitChar 97 n) := by decide
  simp only [hwaddrByte, digits, List.cons_append, List.nil_append, List.mem_cons,
    List.not_mem_nil, or_false] at hb
  obtain rfl | rfl | rfl := hb
  · exact hdigit _ (hiNibble_lt b)
  · exact hdigit _ (loNibble_lt b)
  · decide

theorem encodable_infoPlist {dnssd : Dnssd} {hwAddr pk : Bytes} (hname : StringOk dnssd.name)
    (hhw : StringOk hwAddr) : Encodable (infoPlist dnssd hwAddr pk) := by
  have hformats : ∀ n, n < 2 ^ 64 → Encodable (plistNewDict [("type", .uint n),
      ("audioInputFormats", .uint 67108860), ("audioOutputFormats", .uint 67108860)]) := by
    intro n hn
    refine encodable_newDict (by simp only [List.map_cons, List.map_nil]; decide) ?_
    simp only [List.forall_mem_cons]
    exact ⟨.uint _ hn, .uint _ (by decide), .uint _ (by decide), List.forall_mem_nil _⟩
  have hlatencies : ∀ n, n < 2 ^ 64 → Encodable (plistNewDict [("outputLatencyMicros", .uint 0),
      ("type", .uint n), ("audioType", plistNewString "default"), ("inputLatencyMicros", .uint 0)]) := by
    intro n hn
    refine encodable_newDict (by simp only [List.map_cons, List.map_nil]; decide) ?_
    simp only [List.forall_mem_cons]
    exact ⟨.uint _ (by decide), .uint _ hn, encodable_literal (by decide), .uint _ (by decide),
      List.forall_mem_nil _⟩
  refine encodable_newDict (by simp only [List.map_cons, List.map_nil]; decide) ?_
  simp only [List.forall_mem_cons]
  refine ⟨.data _, .uint _ (by decide), .string _ hname, .array _ ?_, encodable_literal (by decide),
    .uint _ (by decide), .uint _ (by decide), .boolean _, encodable_literal (by decide), .data _,
    .boolean _, .string _ hhw, .array _ ?_, encodable_literal (by decide), .string _ hhw, .array _ ?_,
    List.forall_mem_nil _⟩
  · simp only [List.forall_mem_cons]
    exact ⟨hformats 100 (by decide), hformats 101 (by decide), List.forall_mem_nil _⟩
  · simp only [List.forall_mem_cons]
    exact ⟨hlatencies 100 (by decide), hlatencies 101 (by decide), List.forall_mem_nil _⟩
  · simp only [List.forall_mem_cons]
    refine ⟨encodable_newDict (by simp only [List.map_cons, List.map_nil]; decide) ?_, List.forall_mem_nil _⟩
    simp only [List.forall_mem_cons]
    exact ⟨encodable_literal (by decide), .uint _ (by decide), .uint _ (by decide),
      .uint _ (by decide), .uint _ (by decide), .uint _ (by decide), .uint _ (by decide),
      .boolean _, .real _ (by decide), .boolean _, .uint _ (by decide), List.forall_mem_nil _⟩

/-! ## `SETUP` -/

/-- The ports are of type `unsigned short`. -/
structure PortsFit (x : RaopExchange) : Prop where
  timing : x.timingLport < 2 ^ 16
  event : x.port < 2 ^ 16
  data : ∀ i, x.dataPort i < 2 ^ 16
  control : ∀ i, x.controlPort i < 2 ^ 16

section
variable {F : Playfair} {conn : RaopConnS} {x : RaopExchange} (hx : PortsFit x)

/-- Items that one of the two parts adds to the answer. -/
def ItemsFit (items : List (String × Plist)) : Prop :=
  ∀ item ∈ items, PlainLiteral item.1 ∧ Encodable item.2

include hx

theorem encodable_setupStream (useUdp : Bool) (i : ℕ) (stream : Plist) :
    ∀ item ∈ (setupStream conn x useUdp i stream).1, Encodable item := by
  have hport : ∀ (p : Prop) [Decidable p] (port : ℕ), port < 2 ^ 16 →
      Encodable (.uint (if p then port else 0)) := by
    intro p _ port hlt
    refine .uint _ ?_
    split <;> omega
  unfold setupStream
  dsimp only
  generalize (plistGetUintVal (plistDictGetItem (some stream) "type")).getD (x.typeBefore i) = type
  by_cases hmirror : type = 110
  · rw [if_pos hmirror]
    refine List.forall_mem_singleton.mpr (encodable_newDict ?_ ?_)
    · simp only [List.map_cons, List.map_nil]
      decide
    · simp only [List.forall_mem_cons]
      exact ⟨hport _ _ (hx.data i), .uint _ (by decide), List.forall_mem_nil _⟩
  · rw [if_neg hmirror]
    by_cases haudio : type = 96
    · rw [if_pos haudio]
      refine List.forall_mem_singleton.mpr (encodable_newDict ?_ ?_)
      · simp only [List.map_cons, List.map_nil]
        decide
      · simp only [List.forall_mem_cons]
        exact ⟨hport _ _ (hx.data i), hport _ _ (hx.control i), .uint _ (by decide),
          List.forall_mem_nil _⟩
    · rw [if_neg haudio]
      exact List.forall_mem_nil _

theorem itemsFit_setupStreams (useUdp : Bool) (root : Option Plist) :
    ItemsFit (setupStreams conn x useUdp root).items := by
  have hkey : PlainLiteral "streams" := by decide
  unfold setupStreams
  split
  · refine List.forall_mem_singleton.mpr ⟨hkey, .array _ fun item hitem => ?_⟩
    obtain ⟨pass, hpass, hitem⟩ := List.mem_flatMap.mp hitem
    obtain ⟨s, -, rfl⟩ := List.mem_map.mp hpass
    exact encodable_setupStream hx useUdp s.2 s.1 item hitem
  · exact List.forall_mem_nil _

theorem itemsFit_setupKeys {root : Option Plist} {keys : SetupPart}
    (hkeys : setupKeys F conn x root = .ok keys) : ItemsFit keys.items := by
  have htiming := hx.timing
  have hevent := hx.event
  have htimingKey : PlainLiteral "timingPort" := by decide
  have heventKey : PlainLiteral "eventPort" := by decide
  unfold setupKeys at hkeys
  split at hkeys
  · obtain ⟨aesiv, -, hkeys⟩ := bind_eq_ok.mp hkeys
    obtain ⟨aeskey, -, hkeys⟩ := bind_eq_ok.mp hkeys
    dsimp only at hkeys
    split at hkeys
    · cases hkeys
    · cases hkeys
      refine List.forall_mem_cons.mpr ⟨⟨htimingKey, .uint _ (by omega)⟩, ?_⟩
      exact List.forall_mem_singleton.mpr ⟨heventKey, .uint _ (by omega)⟩
  · cases hkeys
    exact List.forall_mem_nil _

/-- A `SETUP` request whose body a client has encoded is handled as what the client encoded, and the
client decodes the answer, whatever addresses the two use. -/
theorem setup_exchange {alloc alloc' : ℕ → ℕ} (halloc : Function.Injective alloc)
    (halloc' : Function.Injective alloc') {p : Plist} (hp : Encodable p)
    (hbody : x.request.data = (libplist alloc).toBin p) (hlen : x.request.data.length < 2 ^ 32)
    {out : Outcome} (hrun : raopHandlerSetup F (libplist alloc') conn x = .ok out) :
    ∃ transport keys body, httpRequestGetHeader x.request "Transport" = .ok transport ∧
      setupKeys F conn x (some p) = .ok keys ∧ out.responseData = some body ∧
      let streams := setupStreams keys.conn x (transportUdp transport) (some p)
      out.conn = streams.conn ∧ (body.length < 2 ^ 32 →
        (libplist alloc).fromBin body = some (plistNewDict (keys.items ++ streams.items))) := by
  have hplistBody : plistBody x.request = (libplist alloc).toBin p := by
    rw [plistBody, Nat.mod_eq_of_lt hlen, List.take_length, hbody]
  have hread : (libplist alloc').fromBin (plistBody x.request) = some p := by
    rw [hplistBody]
    exact libplist_fromBin_toBin halloc hp (hbody ▸ hlen)
  unfold raopHandlerSetup at hrun
  obtain ⟨dacpId, -, hrun⟩ := bind_eq_ok.mp hrun
  obtain ⟨activeRemote, -, hrun⟩ := bind_eq_ok.mp hrun
  obtain ⟨transport, htransport, hrun⟩ := bind_eq_ok.mp hrun
  dsimp only at hrun
  rw [hread] at hrun
  obtain ⟨keys, hkeys, hrun⟩ := bind_eq_ok.mp hrun
  cases hrun
  refine ⟨transport, keys, _, htransport, hkeys, rfl, rfl,
    fun hsmall => libplist_fromBin_toBin halloc' ?_ hsmall⟩
  have hitems : ItemsFit (keys.items ++
      (setupStreams keys.conn x (transportUdp transport) (some p)).items) :=
    List.forall_mem_append.mpr ⟨itemsFit_setupKeys hx hkeys, itemsFit_setupStreams hx _ _⟩
  refine encodable_newDict (fun s hs => ?_) fun item hitem => (hitems item hitem).2
  obtain ⟨item, hitem, rfl⟩ := List.mem_map.mp hs
  exact (hitems item hitem).1

end

/-- A client asks for mirroring before it has sent keys. -/
def mirroringPlist : Plist := plistNewDict [("streams", .array [plistNewDict [("type", .uint 110)]])]

theorem encodable_mirroringPlist : Encodable mirroringPlist := by
  refine encodable_newDict (by decide) (List.forall_mem_singleton.mpr (.array _ ?_))
  exact List.forall_mem_singleton.mpr
    (encodable_newDict (by decide) (List.forall_mem_singleton.mpr (.uint _ (by decide))))

def setupMirroring : RaopExchange := plainExchange {
  method := "SETUP"
  url := ascii "rtsp://192.168.1.2/1"
  headers := [(ascii "CSeq", ascii "1")]
  body := (libplist id).toBin mirroringPlist }

/-- The server keeps every second address free. -/
theorem setup_exchange_mirroring :
    ∃ out body, raopHandlerSetup (fun _ _ _ => []) (libplist fun n => 2 * n)
        (connInit ⟨[]⟩ [192, 168, 1, 7]) setupMirroring = .ok out ∧ out.responseData = some body ∧
      (libplist id).fromBin body = some (plistNewDict
        [("streams", .array [plistNewDict [("dataPort", .uint 0), ("type", .uint 110)]])]) := by
  have hlength : ((raopHandlerSetup (fun _ _ _ => []) (libplist fun n => 2 * n)
      (connInit ⟨[]⟩ [192, 168, 1, 7]) setupMirroring).toOption.bind
        fun out => out.responseData.map List.length) = some 84 := by
    decide +kernel
  cases hrun : raopHandlerSetup (fun _ _ _ => []) (libplist fun n => 2 * n)
      (connInit ⟨[]⟩ [192, 168, 1, 7]) setupMirroring with
  | error e =>
    rw [hrun] at hlength
    cases hlength
  | ok out =>
    have hports : PortsFit setupMirroring :=
      ⟨by decide, by decide, fun _ => Nat.two_pow_pos 16, fun _ => Nat.two_pow_pos 16⟩
    have halloc : Function.Injective fun n => 2 * n := fun a b h => by
      dsimp only at h
      omega
    obtain ⟨transport, keys, body, htransport, hkeys, hbody, -, hread⟩ := setup_exchange hports
      Function.injective_id halloc encodable_mirroringPlist rfl (by decide +kernel) hrun
    rw [hrun] at hlength
    have hsmall : body.length = 84 := by
      simpa [Except.toOption, hbody] using hlength
    cases hkeys
    exact ⟨out, body, rfl, hbody, hread (by omega)⟩

/-- The client decodes the answer to `/info`: the device as it was set up. -/
theorem info_answer {alloc alloc' : ℕ → ℕ} (halloc : Function.Injective alloc) {conn : RaopConnS}
    {x : RaopExchange} {dnssd : Dnssd} (hdnssd : x.dnssd = some dnssd) (hready : InfoReady x)
    (hname : StringOk dnssd.name) (hhw : 12 * dnssd.hwAddr.length < 2 ^ 31) :
    ∃ out body, raopHandlerInfo (libplist alloc) conn x = .ok out ∧ out.responseData = some body ∧
      (body.length < 2 ^ 32 → (libplist alloc').fromBin body =
        some (infoPlist dnssd (hwaddrText dnssd.hwAddr) airplayKey)) := by
  obtain ⟨out, hrun, hanswer⟩ := raopHandlerInfo_ok (L := libplist alloc) conn hready
  unfold infoAnswer at hanswer
  rw [hdnssd] at hanswer
  refine ⟨out, _, hrun, congrArg Prod.snd hanswer, fun hsmall => ?_⟩
  refine libplist_fromBin_toBin halloc (encodable_infoPlist hname ?_) hsmall
  refine stringOk_of_plain (hwaddrText_plain _) ?_
  have hlength := length_flatMap_hwaddrByte dnssd.hwAddr
  have hready' : 0 < dnssd.hwAddr.length := by
    unfold InfoReady at hready
    rw [hdnssd] at hready
    exact hready.1
  rw [hwaddrText, List.length_dropLast, hlength]
  omega

def namedDnssd : Dnssd where
  airplayTxt := ascii "deviceid"
  name := ascii "Living Room"
  hwAddr := [1, 2, 3, 0xab]

def getInfo : RaopExchange :=
  { plainExchange { method := "GET", url := ascii "/info", headers := [], body := [] } with
    dnssd := some namedDnssd }

theorem info_answer_named :
    ∃ out body, raopHandlerInfo (libplist id) (connInit ⟨[]⟩ [192, 168, 1, 7]) getInfo = .ok out ∧
      out.responseData = some body ∧ (libplist fun n => 2 * n).fromBin body =
        some (infoPlist namedDnssd (ascii "01:02:03:ab") airplayKey) := by
  have hplain : PlainLiteral "Living Room" := by decide
  have hname : StringOk namedDnssd.name := hplain.stringOk
  have hready : InfoReady getInfo := ⟨by decide, by decide⟩
  have htext : hwaddrText namedDnssd.hwAddr = ascii "01:02:03:ab" := by decide
  obtain ⟨out, body, hrun, hbody, hread⟩ := @info_answer id (fun n => 2 * n) Function.injective_id
    (connInit ⟨[]⟩ [192, 168, 1, 7]) getInfo namedDnssd rfl hready hname (by decide)
  rw [htext] at hread
  have hlength : ((raopHandlerInfo (libplist id) (connInit ⟨[]⟩ [192, 168, 1, 7]) getInfo).toOption.bind
      fun out => out.responseData.map List.length) = some 853 := by
    decide +kernel
  rw [hrun] at hlength
  have hsmall : body.length = 853 := by
    simpa [Except.toOption, hbody] using hlength
  exact ⟨out, body, hrun, hbody, hread (by omega)⟩

end WinAirPlay.Raop
