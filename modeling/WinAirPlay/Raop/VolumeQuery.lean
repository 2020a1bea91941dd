import WinAirPlay.Raop.Requests

/-! # The grammar of `GET_PARAMETER`

The handler looks for a line `volume` at the start of the body or after lines that end with CR LF.
What it accepts is a grammar of its own, `VolumeQuery`: the lines before the keyword have no carriage
return, so each of them ends where the scan stops. A carriage return without a line feed, a line that the
body ends in and a part of the keyword are not in the grammar, and the scan gives up there.
-/

namespace WinAirPlay.Raop
open Foundations.ByteBuffer Foundations.CheckedMemory
set_option autoImplicit false

/-- `(L CR LF)* "volume" CR LF rest`, without a carriage return in any line `L`. -/
def VolumeQuery (body : Bytes) : Prop :=
  ∃ (lines : List Bytes) (rest : Bytes), (∀ line ∈ lines, 13 ∉ line) ∧
    body = (lines.flatMap fun line => line ++ ascii "\r\n") ++ ascii "volume\r\n" ++ rest

/-- The scan ends and stays below `datalen`: it is run in a block of memory that ends there. The answer
is the volume exactly if the body is a query for it, and otherwise there is none. -/
structure GrammarExact (conn : RaopConnS) (x : RaopExchange) : Prop where
  counted : x.request.data.length < 2 ^ 31 → countedBody x.request = x.request.data
  ends : ∃ asked, findVolume (countedBody x.request) (intOf x.request.data.length)
    ((intOf x.request.data.length).toNat + 1) 0 = .ok asked
  answer : ∃ outcome, raopHandlerGetParameter conn x = .ok outcome ∧
    (VolumeQuery (countedBody x.request) →
      outcome.responseData = some (ascii "volume: 0.0\r\n") ∧
        outcome.headers = [contentType "text/parameters"]) ∧
    (¬ VolumeQuery (countedBody x.request) → outcome.responseData = none ∧ outcome.headers = [])

/-! ## The grammar, line by line -/

theorem volumeQuery_here {body : Bytes} (h : body.take 8 = ascii "volume\r\n") :
    VolumeQuery body := by
  refine ⟨[], body.drop 8, fun line hline => absurd hline List.not_mem_nil, ?_⟩
  rw [List.flatMap_nil, List.nil_append, ← h, List.take_append_drop]

theorem volumeQuery_line {line body : Bytes} (hline : 13 ∉ line) (h : VolumeQuery body) :
    VolumeQuery (line ++ ascii "\r\n" ++ body) := by
  obtain ⟨lines, rest, hlines, rfl⟩ := h
  refine ⟨line :: lines, rest, ?_, ?_⟩
  · exact List.forall_mem_cons.mpr ⟨hline, hlines⟩
  · rw [List.flatMap_cons]
    simp only [List.append_assoc]

/-- A text of the grammar starts with the keyword, or its first line ends with CR LF and the rest is
of the grammar again. -/
theorem volumeQuery_cases {body : Bytes} (h : VolumeQuery body) :
    body.take 8 = ascii "volume\r\n" ∨
      ((body.dropWhile (· ≠ 13)).take 2 = ascii "\r\n" ∧
        VolumeQuery ((body.dropWhile (· ≠ 13)).drop 2)) := by
  obtain ⟨lines, rest, hlines, rfl⟩ := h
  cases lines with
  | nil => exact .inl rfl
  | cons line lines =>
    obtain ⟨hline, hlines⟩ := List.forall_mem_cons.mp hlines
    obtain ⟨after, hafter⟩ : ∃ after, after =
        (lines.flatMap fun line => line ++ ascii "\r\n") ++ ascii "volume\r\n" ++ rest := ⟨_, rfl⟩
    have hbody : ((line :: lines).flatMap fun line => line ++ ascii "\r\n") ++
        ascii "volume\r\n" ++ rest = line ++ (13 :: 10 :: after) := by
      rw [hafter, List.flatMap_cons]
      simp only [List.append_assoc]
      rfl
    have htail : (line ++ (13 :: 10 :: after)).dropWhile (· ≠ 13) = 13 :: 10 :: after := by
      rw [List.dropWhile_append_of_pos]
      · rfl
      · intro b hb
        simpa using fun hcr : b = 13 => hline (hcr ▸ hb)
    rw [hbody, htail]
    exact .inr ⟨rfl, lines, rest, hlines, hafter⟩

/-- The scan accepts exactly the grammar, when it may look at as many lines as there are bytes. -/
theorem volumeAsked_iff {passes : ℕ} {body : Bytes} (h : body.length < passes) :
    volumeAsked passes body = true ↔ VolumeQuery body := by
  induction passes generalizing body with
  | zero => omega
  | succ passes ih =>
    rw [volumeAsked]
    by_cases hvolume : body.take 8 = ascii "volume\r\n"
    · rw [if_pos hvolume]
      exact iff_of_true rfl (volumeQuery_here hvolume)
    rw [if_neg hvolume]
    dsimp only
    by_cases hcrlf : (body.dropWhile (· ≠ 13)).take 2 = ascii "\r\n"
    · have hsplit : body = body.takeWhile (· ≠ 13) ++ ascii "\r\n" ++
          (body.dropWhile (· ≠ 13)).drop 2 := by
        rw [← hcrlf, List.append_assoc, List.take_append_drop, List.takeWhile_append_dropWhile]
      have hline : 13 ∉ body.takeWhile (· ≠ 13) := fun hmem => by
        simpa using List.mem_takeWhile_imp hmem
      have hshort : ((body.dropWhile (· ≠ 13)).drop 2).length < passes := by
        have hlength := congrArg List.length hsplit
        have htwo : (ascii "\r\n").length = 2 := rfl
        rw [List.length_append, List.length_append, htwo] at hlength
        omega
      rw [if_pos hcrlf, ih hshort]
      constructor
      · intro hrest
        rw [hsplit]
        exact volumeQuery_line hline hrest
      · exact fun hbody => (volumeQuery_cases hbody).resolve_left hvolume |>.2
    · rw [if_neg hcrlf]
      refine iff_of_false (by decide) fun hbody => ?_
      rcases volumeQuery_cases hbody with hvolume' | ⟨hcrlf', -⟩
      · exact hvolume hvolume'
      · exact hcrlf hcrlf'

/-! ## The handler -/

theorem length_countedBody (request : HttpRequest) :
    (countedBody request).length = (intOf request.data.length).toNat := by
  have hle := intOf_le request.data.length
  rw [countedBody, List.length_take]
  omega

theorem countedBody_eq {request : HttpRequest} (h : request.data.length < 2 ^ 31) :
    countedBody request = request.data := by
  rw [countedBody, intOf_nat h, Int.toNat_natCast, List.take_length]

theorem findVolume_cut (request : HttpRequest) :
    findVolume (countedBody request) (intOf request.data.length)
        ((intOf request.data.length).toNat + 1) 0 =
      .ok (volumeAsked ((intOf request.data.length).toNat + 1) (countedBody request)) := by
  have hlength := length_countedBody request
  have hle : intOf request.data.length ≤ (countedBody request).length := by
    rw [hlength]
    exact Int.self_le_toNat _
  rw [findVolume_int hle, ← hlength, List.take_length]

theorem get_parameter_grammar {conn : RaopConnS} {x : RaopExchange}
    (htype : httpRequestGetHeader x.request "Content-Type" =
      .ok (some (ascii "text/parameters"))) : GrammarExact conn x := by
  refine ⟨countedBody_eq, ⟨_, findVolume_cut x.request⟩, ?_⟩
  have hgrammar : volumeAsked ((intOf x.request.data.length).toNat + 1) (countedBody x.request) =
      true ↔ VolumeQuery (countedBody x.request) :=
    volumeAsked_iff (by rw [length_countedBody]; omega)
  unfold raopHandlerGetParameter
  rw [htype, ok_bind, requireHeader, ok_bind]
  dsimp only [httpRequestGetData]
  rw [if_pos rfl, findVolume_counted, ok_bind]
  by_cases hquery : VolumeQuery (countedBody x.request)
  · rw [if_pos (hgrammar.mpr hquery)]
    exact ⟨_, rfl, fun _ => ⟨rfl, rfl⟩, fun hnot => absurd hquery hnot⟩
  · rw [if_neg fun hasked => hquery (hgrammar.mp hasked)]
    exact ⟨_, rfl, fun hquery' => absurd hquery' hquery, fun _ => ⟨rfl, rfl⟩⟩

/-- A query with another line before it. -/
def volumeAfterLine : RaopExchange := plainExchange {
  method := "GET_PARAMETER"
  url := ascii "rtsp://192.168.1.2/1"
  headers := [(ascii "CSeq", ascii "1"), (ascii "Content-Type", ascii "text/parameters")]
  body := ascii "other\r\nvolume\r\n" }

theorem get_parameter_grammar_volume :
    GrammarExact (connInit ⟨[]⟩ [192, 168, 1, 7]) volumeAfterLine :=
  get_parameter_grammar (by decide)

end WinAirPlay.Raop
