import WinAirPlay.Foundations.Scanf
import WinAirPlay.Raop.Requests
import WinAirPlay.Rtp.Mailbox

/-! # The numbers of `SET_PARAMETER`

The handler hands its variables on whatever `sscanf` returned: `vol` is 0.0 where no number was
converted, and of `start`, `curr` and `end` those that were not converted have not been written at
all. So volume and progress are set from the body alone exactly if the numbers of the body are there.
-/

namespace WinAirPlay.Raop
open Foundations.ByteBuffer Foundations.CheckedMemory Foundations.Scanf
set_option autoImplicit false

/-! ## The formats -/

/-- What the conversions make of an item: the `float` of a number, and what is stored for an unsigned
number that is out of range. -/
structure ScanValues where
  toFloat : Bytes → Float32
  outOfRange : Bytes → UInt32
  deriving Inhabited

section
variable (V : ScanValues)

/-- `"%f"` -/
def volumeFormat : List (Directive UInt8 Float32) := [.convert floatScanner V.toFloat]

def unsignedNumber : Directive UInt8 UInt32 :=
  .convert unsignedScanner (unsignedValue V.outOfRange)

/-- `"%u/%u/%u"` -/
def progressFormat : List (Directive UInt8 UInt32) :=
  [unsignedNumber V, .literal 47, unsignedNumber V, .literal 47, unsignedNumber V]

/-- The mailbox after a call of `SET_PARAMETER`, which makes no others. `garbage` is what `start`,
`curr` and `end` hold before they are written. -/
def MediaCall.post (garbage : ℕ → UInt32) (mailbox : RtpMailbox) : MediaCall → RtpMailbox
  | .setVolume text =>
    let vol := (sscanf isSpace (volumeFormat V) text).getD 0 0
    raopRtpSetVolume mailbox vol
  | .setProgress text =>
    let stored := sscanf isSpace (progressFormat V) text
    raopRtpSetProgress mailbox (stored.getD 0 (garbage 0)) (stored.getD 1 (garbage 1))
      (stored.getD 2 (garbage 2))
  | .setCoverart data => raopRtpSetCoverart mailbox data
  | .setMetadata data => raopRtpSetMetadata mailbox data
  | _ => mailbox

def posted (garbage : ℕ → UInt32) (calls : List MediaCall) (mailbox : RtpMailbox) : RtpMailbox :=
  calls.foldl (fun mailbox call => call.post V garbage mailbox) mailbox

/-! ## What a body may do -/

/-- Volume and progress are as they were. -/
structure SamePlayback (mailbox mailbox' : RtpMailbox) : Prop where
  volume : mailbox'.volume = mailbox.volume
  volumeChanged : mailbox'.volumeChanged = mailbox.volumeChanged
  progressStart : mailbox'.progressStart = mailbox.progressStart
  progressCurr : mailbox'.progressCurr = mailbox.progressCurr
  progressEnd : mailbox'.progressEnd = mailbox.progressEnd
  progressChanged : mailbox'.progressChanged = mailbox.progressChanged

/-- The C string that follows a label of `k` characters. -/
def textAfter (k : ℕ) (body : Bytes) : Bytes := (body.drop k).takeWhile (· ≠ 0)

/-- `sscanf` stores `vol` and with it all that is asked for. -/
def VolumeStored (body : Bytes) (vol : Float32) : Prop :=
  body.take 8 = ascii "volume: " ∧ sscanf isSpace (volumeFormat V) (textAfter 8 body) = [vol]

def ProgressStored (body : Bytes) (start curr end_ : UInt32) : Prop :=
  body.take 10 = ascii "progress: " ∧
    sscanf isSpace (progressFormat V) (textAfter 10 body) = [start, curr, end_]

/-- Volume and progress are left as they are, or one of them is set to the numbers that `sscanf`
stores, all of them, in every state of the mailbox. -/
def OnlyConverted (conn : RaopConnS) (x : RaopExchange) : Prop :=
  ∀ o, raopHandlerSetParameter conn x = .ok o →
    (∀ garbage mailbox, SamePlayback mailbox (posted V garbage o.calls mailbox)) ∨
    (∃ vol, VolumeStored V (countedBody x.request) vol ∧
      ∀ garbage mailbox, posted V garbage o.calls mailbox = raopRtpSetVolume mailbox vol) ∨
    ∃ start curr end_, ProgressStored V (countedBody x.request) start curr end_ ∧
      ∀ garbage mailbox,
        posted V garbage o.calls mailbox = raopRtpSetProgress mailbox start curr end_

/-- A volume is followed by a number, a progress by three unsigned numbers with slashes between. -/
structure NumbersGiven (body : Bytes) : Prop where
  volume : body.take 8 = ascii "volume: " →
    ∃ item rest, IsItem floatScanner isSpace (textAfter 8 body) item rest
  progress : body.take 10 = ascii "progress: " →
    ∃ start afterStart curr afterCurr end_ rest,
      IsItem unsignedScanner isSpace (textAfter 10 body) start (47 :: afterStart) ∧
      IsItem unsignedScanner isSpace afterStart curr (47 :: afterCurr) ∧
      IsItem unsignedScanner isSpace afterCurr end_ rest

/-! ## What is stored -/

theorem endsInConversion_volume : EndsInConversion (volumeFormat V) := by
  intro directive h
  obtain rfl := Option.mem_some_iff.mp h
  rfl

theorem endsInConversion_progress : EndsInConversion (progressFormat V) := by
  intro directive h
  obtain rfl := Option.mem_some_iff.mp h
  rfl

theorem volume_stored_iff (text : Bytes) :
    (∃ vol, sscanf isSpace (volumeFormat V) text = [vol]) ↔
      ∃ item rest, IsItem floatScanner isSpace text item rest := by
  constructor
  · rintro ⟨vol, hvol⟩
    obtain ⟨item, rest, -, hitem, -⟩ :=
      (converts_iff (endsInConversion_volume V)).mpr ⟨hvol, rfl⟩
    exact ⟨item, rest, hitem⟩
  · rintro ⟨item, rest, hitem⟩
    have hconverts : Converts isSpace (volumeFormat V) text [V.toFloat item] :=
      ⟨item, rest, [], hitem, rfl, rfl⟩
    exact ⟨_, ((converts_iff (endsInConversion_volume V)).mp hconverts).1⟩

theorem progress_stored_iff (text : Bytes) :
    (∃ start curr end_, sscanf isSpace (progressFormat V) text = [start, curr, end_]) ↔
      ∃ start afterStart curr afterCurr end_ rest,
        IsItem unsignedScanner isSpace text start (47 :: afterStart) ∧
        IsItem unsignedScanner isSpace afterStart curr (47 :: afterCurr) ∧
        IsItem unsignedScanner isSpace afterCurr end_ rest := by
  constructor
  · rintro ⟨start, curr, end_, hstored⟩
    obtain ⟨item, -, -, hstart, -, afterStart, rfl, item', -, -, hcurr, -, afterCurr, rfl, item'',
      rest, -, hend, -⟩ := (converts_iff (endsInConversion_progress V)).mpr ⟨hstored, rfl⟩
    exact ⟨item, afterStart, item', afterCurr, item'', rest, hstart, hcurr, hend⟩
  · rintro ⟨start, afterStart, curr, afterCurr, end_, rest, hstart, hcurr, hend⟩
    have hconverts : Converts isSpace (progressFormat V) text
        ([start, curr, end_].map (unsignedValue V.outOfRange)) :=
      ⟨start, _, _, hstart, rfl, afterStart, rfl, curr, _, _, hcurr, rfl, afterCurr, rfl, end_, rest,
        [], hend, rfl, rfl⟩
    exact ⟨_, _, _, ((converts_iff (endsInConversion_progress V)).mp hconverts).1⟩

/-! ## The handler -/

section
variable {V} {conn : RaopConnS} {x : RaopExchange}

/-- The condition: where the numbers are used, they are given. -/
def NumbersWhereUsed (conn : RaopConnS) (x : RaopExchange) : Prop :=
  ParametersFit conn x → conn.raopRtp.isSome → NumbersGiven (countedBody x.request)

theorem raopHandlerSetParameter_text
    (htype : httpRequestGetHeader x.request "Content-Type" =
      .ok (some (ascii "text/parameters"))) :
    raopHandlerSetParameter conn x =
      (setParameters conn x.request.data (intOf x.request.data.length)).bind fun calls =>
        .ok { unanswered conn with calls } := by
  unfold raopHandlerSetParameter
  rw [htype, ok_bind, requireHeader, ok_bind]
  dsimp only [httpRequestGetData]
  rw [if_pos rfl]
  rfl

/-- A label is not the beginning of the other one. -/
theorem take_volume_ne {body : Bytes} (h : body.take 10 = ascii "progress: ") :
    body.take 8 ≠ ascii "volume: " := by
  have htake : body.take 8 = (ascii "progress: ").take 8 := by
    rw [← h, List.take_take]
    rfl
  rw [htake]
  decide

theorem parameterCalls_volume {body : Bytes} (hrtp : conn.raopRtp.isSome)
    (h : body.take 8 = ascii "volume: ") :
    parameterCalls conn body = [.setVolume (textAfter 8 body)] := by
  rw [parameterCalls, if_pos hrtp, if_pos h]
  rfl

theorem parameterCalls_progress {body : Bytes} (hrtp : conn.raopRtp.isSome)
    (h : body.take 10 = ascii "progress: ") :
    parameterCalls conn body = [.setProgress (textAfter 10 body)] := by
  rw [parameterCalls, if_pos hrtp, if_neg (take_volume_ne h), if_pos h]
  rfl

theorem parameterCalls_other {body : Bytes}
    (h : ¬ (conn.raopRtp.isSome ∧
      (body.take 8 = ascii "volume: " ∨ body.take 10 = ascii "progress: "))) :
    parameterCalls conn body = [] := by
  unfold parameterCalls
  split_ifs with hrtp hvolume hprogress
  · exact absurd ⟨hrtp, Or.inl hvolume⟩ h
  · exact absurd ⟨hrtp, Or.inr hprogress⟩ h
  · rfl
  · rfl

theorem posted_parameterCalls {body : Bytes} (h : conn.raopRtp.isSome → NumbersGiven body) :
    (∀ garbage mailbox,
      SamePlayback mailbox (posted V garbage (parameterCalls conn body) mailbox)) ∨
    (∃ vol, VolumeStored V body vol ∧ ∀ garbage mailbox,
      posted V garbage (parameterCalls conn body) mailbox = raopRtpSetVolume mailbox vol) ∨
    ∃ start curr end_, ProgressStored V body start curr end_ ∧ ∀ garbage mailbox,
      posted V garbage (parameterCalls conn body) mailbox =
        raopRtpSetProgress mailbox start curr end_ := by
  by_cases hused : conn.raopRtp.isSome ∧
      (body.take 8 = ascii "volume: " ∨ body.take 10 = ascii "progress: ")
  · obtain ⟨hrtp, hvolume | hprogress⟩ := hused
    · obtain ⟨vol, hvol⟩ := (volume_stored_iff V _).mpr ((h hrtp).volume hvolume)
      refine .inr (.inl ⟨vol, ⟨hvolume, hvol⟩, fun garbage mailbox => ?_⟩)
      rw [parameterCalls_volume hrtp hvolume]
      show raopRtpSetVolume mailbox ((sscanf isSpace (volumeFormat V) (textAfter 8 body)).getD 0 0) =
        _
      rw [hvol]
      rfl
    · obtain ⟨start, curr, end_, hstored⟩ :=
        (progress_stored_iff V _).mpr ((h hrtp).progress hprogress)
      refine .inr (.inr ⟨start, curr, end_, ⟨hprogress, hstored⟩, fun garbage mailbox => ?_⟩)
      rw [parameterCalls_progress hrtp hprogress]
      simp only [posted, List.foldl_cons, List.foldl_nil, MediaCall.post, hstored]
      rfl
  · refine .inl fun garbage mailbox => ?_
    rw [parameterCalls_other hused]
    exact ⟨rfl, rfl, rfl, rfl, rfl, rfl⟩

/-- The other direction: a number that is missing is replaced. -/
theorem numbersGiven_of_onlyConverted
    (htype : httpRequestGetHeader x.request "Content-Type" =
      .ok (some (ascii "text/parameters")))
    (hfit : ParametersFit conn x) (hrtp : conn.raopRtp.isSome) (h : OnlyConverted V conn x) :
    NumbersGiven (countedBody x.request) := by
  have hcalls : raopHandlerSetParameter conn x =
      .ok { unanswered conn with calls := parameterCalls conn (countedBody x.request) } := by
    rw [raopHandlerSetParameter_text htype, setParameters_eq hfit]
    rfl
  obtain hsame | ⟨vol, hstored, hpost⟩ | ⟨start, curr, end_, hstored, hpost⟩ := h _ hcalls
  · constructor
    · intro hvolume
      have hchanged := (hsame (fun _ => 0) rtpMailboxInit).volumeChanged
      rw [parameterCalls_volume hrtp hvolume] at hchanged
      exact absurd (show true = false from hchanged) (by decide)
    · intro hprogress
      have hchanged := (hsame (fun _ => 0) rtpMailboxInit).progressChanged
      rw [parameterCalls_progress hrtp hprogress] at hchanged
      exact absurd (show true = false from hchanged) (by decide)
  · constructor
    · exact fun _ => (volume_stored_iff V _).mp ⟨vol, hstored.2⟩
    · exact fun hprogress => absurd hstored.1 (take_volume_ne hprogress)
  · constructor
    · exact fun hvolume => absurd hvolume (take_volume_ne hstored.1)
    · exact fun _ => (progress_stored_iff V _).mp ⟨start, curr, end_, hstored.2⟩

/-- The handler keeps to the numbers of the body exactly if they are given where they are used. -/
theorem setParameter_converted_iff
    (htype : httpRequestGetHeader x.request "Content-Type" =
      .ok (some (ascii "text/parameters"))) :
    OnlyConverted V conn x ↔ NumbersWhereUsed conn x := by
  constructor
  · exact fun h hfit hrtp => numbersGiven_of_onlyConverted htype hfit hrtp h
  · intro h o ho
    rw [raopHandlerSetParameter_text htype] at ho
    by_cases hfit : ParametersFit conn x
    · rw [setParameters_eq hfit] at ho
      obtain rfl := Except.ok.inj ho
      exact posted_parameterCalls (h hfit)
    · obtain ⟨fault, hfault⟩ := setParameters_fault hfit
      rw [hfault] at ho
      cases ho

/-- A connection with an audio session, and a body for it. -/
def playing : RaopConnS := { connInit ⟨[]⟩ [192, 168, 1, 7] with raopRtp := some 0 }

def parametersExchange (body : String) : RaopExchange := plainExchange {
  method := "SET_PARAMETER"
  url := ascii "rtsp://192.168.1.2/1"
  headers := [(ascii "CSeq", ascii "1"), (ascii "Content-Type", ascii "text/parameters")]
  body := ascii body }

theorem setParameter_converted_volume :
    OnlyConverted default playing (parametersExchange "volume: -30.5\r\n") ↔
      NumbersWhereUsed playing (parametersExchange "volume: -30.5\r\n") :=
  setParameter_converted_iff (by decide)

/-- The third number is missing, and `end` was never written. -/
theorem setParameter_unconverted :
    ¬ ∀ (V : ScanValues) (conn : RaopConnS) (x : RaopExchange),
      httpRequestGetHeader x.request "Content-Type" = .ok (some (ascii "text/parameters")) →
      OnlyConverted V conn x := by
  intro h
  have hgiven := numbersGiven_of_onlyConverted (x := parametersExchange "progress: 1/2\r\n")
    (by decide) ⟨by decide, by decide⟩ rfl (h default playing _ (by decide))
  obtain ⟨start, curr, end_, hstored⟩ :=
    (progress_stored_iff default _).mpr (hgiven.progress (by decide))
  have htwo : (sscanf isSpace (progressFormat default)
      (textAfter 10 (countedBody (parametersExchange "progress: 1/2\r\n").request))).length = 2 := by
    decide
  rw [hstored] at htwo
  exact absurd htwo (by simp)

end

end

end WinAirPlay.Raop
