import Mathlib.Data.List.Induction
import WinAirPlay.Foundations.Transition
import WinAirPlay.Http.Parser

/-! # Requests put together from fragments

After the last callback of a message the request object is the one of the message, however the texts
were cut. While the callbacks come in, `headers_index` points into the last pair of `headers`: its
parity says whether a field or a value is being read (`LastPair`). The order of the callbacks counts
here: a value only comes after a field.
-/

namespace WinAirPlay
open Foundations.ByteBuffer Foundations.Transition
set_option autoImplicit false

/-- The request has the texts of the message, the headers one by one and in their order. -/
structure Reassembled (message : HttpMessage) (request : HttpRequest) : Prop where
  complete : request.complete = true ∧ request.method = some message.method
  url : request.url = some message.url
  headersSize : request.headers.length = 2 * message.headers.length
  header : ∀ i (h : i < message.headers.length),
    request.headers[2 * i]? = some (some (message.headers.get ⟨i, h⟩).1) ∧
      request.headers[2 * i + 1]? = some (some (message.headers.get ⟨i, h⟩).2)
  data : request.data = message.body
  getHeader : ∀ name : String, httpRequestGetHeader request name =
    (message.headers.find? fun header => header.1 = ascii name).map Prod.snd

/-- A callback with a header field was made. -/
def HeaderSeen (seen : List ParserCallback) : Prop := ∃ text, .headerField text ∈ seen

/-- What `headers_size`, `headers_index` and the slots are after the callbacks `seen`. -/
structure HeadersRight (seen : List ParserCallback) (request : HttpRequest) : Prop where
  even : request.headers.length % 2 = 0
  index : HeaderSeen seen → request.headersIndex < request.headers.length
  fields : ∀ i, 2 * i < request.headers.length →
    ∃ text, request.headers[2 * i]? = some (some text)

/-! ## The last pair -/

/-- `headers_index` is in the last pair of an array of pairs. -/
structure LastPair (headers : List (Option Bytes)) (index : ℕ) : Prop where
  even : headers.length % 2 = 0
  empty : headers = [] → index = 0
  last : headers ≠ [] → index < headers.length ∧ headers.length ≤ index + 2
  fields : ∀ i, 2 * i < headers.length → ∃ text, headers[2 * i]? = some (some text)

/-- Text written to a slot of the last pair; the slot may be a field without text so far. -/
theorem lastPair_write {headers : List (Option Bytes)} {i : ℕ} (heven : headers.length % 2 = 0)
    (hi : i < headers.length) (hlast : headers.length ≤ i + 2)
    (hfields : ∀ k, 2 * k < headers.length → 2 * k ≠ i →
      ∃ s, headers[2 * k]? = some (some s)) (text : Bytes) :
    LastPair (headers.modify i fun s => some (strncat s text)) i ∧
      (headers.modify i fun s => some (strncat s text)) ≠ [] := by
  have hlen : (headers.modify i fun s => some (strncat s text)).length = headers.length :=
    List.length_modify _ _ _
  have hne : (headers.modify i fun s => some (strncat s text)) ≠ [] := by
    intro h
    rw [h, List.length_nil] at hlen
    omega
  refine ⟨⟨by rw [hlen]; exact heven, fun h => absurd h hne, fun _ => by rw [hlen]; exact ⟨hi, hlast⟩,
    fun k hk => ?_⟩, hne⟩
  rw [hlen] at hk
  by_cases hself : 2 * k = i
  · refine ⟨strncat (headers.get ⟨i, hi⟩) text, ?_⟩
    rw [hself, List.getElem?_modify, List.getElem?_eq_getElem hi]
    simp
  · obtain ⟨s, hs⟩ := hfields k hk hself
    refine ⟨s, ?_⟩
    rw [List.getElem?_modify, hs]
    simp [Ne.symm hself]

theorem LastPair.headerField {request : HttpRequest}
    (h : LastPair request.headers request.headersIndex) (text : Bytes) :
    LastPair (onHeaderField request text).headers (onHeaderField request text).headersIndex ∧
      (onHeaderField request text).headers ≠ [] := by
  obtain ⟨method, url, headers, index, data, complete⟩ := request
  -- a new pair is the last one, and its field gets the text
  have hgrown : LastPair ((headers ++ [none, none]).modify headers.length fun s =>
      some (strncat s text)) headers.length ∧
      ((headers ++ [none, none]).modify headers.length fun s => some (strncat s text)) ≠ [] := by
    have heven : headers.length % 2 = 0 := h.even
    refine lastPair_write (by simp; omega) (by simp) (by simp) (fun k hk hother => ?_) text
    have hk : 2 * k < headers.length := by
      simp only [List.length_append, List.length_cons, List.length_nil] at hk
      omega
    obtain ⟨s, hs⟩ := h.fields k hk
    exact ⟨s, by rw [List.getElem?_append_left hk]; exact hs⟩
  have heven : headers.length % 2 = 0 := h.even
  by_cases hempty : headers = []
  · obtain rfl : index = 0 := h.empty hempty
    subst hempty
    exact hgrown
  · obtain ⟨hlt, hle⟩ : index < headers.length ∧ headers.length ≤ index + 2 := h.last hempty
    by_cases hodd : index % 2 = 1
    · have hnext : index + 1 = headers.length := by omega
      simp only [onHeaderField, if_pos hodd, hnext, if_true, appendHeader]
      exact hgrown
    · simp only [onHeaderField, if_neg hodd, if_neg hlt.ne, appendHeader]
      exact lastPair_write heven hlt hle (fun k hk _ => h.fields k hk) text

theorem LastPair.headerValue {request : HttpRequest}
    (h : LastPair request.headers request.headersIndex) (hne : request.headers ≠ [])
    (text : Bytes) :
    LastPair (onHeaderValue request text).headers (onHeaderValue request text).headersIndex ∧
      (onHeaderValue request text).headers ≠ [] := by
  obtain ⟨method, url, headers, index, data, complete⟩ := request
  have heven : headers.length % 2 = 0 := h.even
  obtain ⟨hlt, hle⟩ : index < headers.length ∧ headers.length ≤ index + 2 := h.last hne
  by_cases hfield : index % 2 = 0
  · simp only [onHeaderValue, if_pos hfield, appendHeader]
    exact lastPair_write heven (by omega) (by omega) (fun k hk _ => h.fields k hk) text
  · simp only [onHeaderValue, if_neg hfield, appendHeader]
    exact lastPair_write heven hlt hle (fun k hk _ => h.fields k hk) text

/-! ## The order of the callbacks -/

/-- A value comes after a field. -/
def ValueAfterField (seen : List ParserCallback) (callback : ParserCallback) : Prop :=
  ∀ text, callback = .headerValue text → HeaderSeen seen

theorem deliversHeader_cons {header : Bytes × Bytes} {callbacks : List ParserCallback}
    (h : DeliversHeader header callbacks) : ∃ text rest, callbacks = .headerField text :: rest := by
  obtain ⟨names, values, hnames, -, -, -, rfl⟩ := h
  obtain ⟨first, names, rfl⟩ := List.exists_cons_of_ne_nil hnames
  exact ⟨first, _, rfl⟩

theorem delivers_ordered {message : HttpMessage} {callbacks : List ParserCallback}
    (h : Delivers message callbacks) : EachAfter ValueAfterField callbacks := by
  obtain ⟨urls, bodies, headers, -, -, hheaders, -, rfl⟩ := h
  rintro before callback after heq text rfl
  generalize message.headers = messageHeaders at hheaders
  cases hheaders with
  | nil =>
    -- without headers there is no value either
    have hmem : ParserCallback.headerValue text ∈ urls.map ParserCallback.url ++ [].flatten ++
        bodies.map .body ++ [.messageComplete message.method] := by
      rw [heq]
      simp
    simp at hmem
  | @cons header block _ blocks hblock _ =>
    obtain ⟨field, rest, rfl⟩ := deliversHeader_cons hblock
    simp only [List.flatten_cons, List.cons_append, List.append_assoc] at heq
    rcases List.append_eq_append_iff.mp heq with ⟨middle, rfl, hmiddle⟩ | ⟨middle, hurls, hmiddle⟩
    · cases middle with
      | nil => exact ParserCallback.noConfusion (List.cons.inj hmiddle).1
      | cons first middle =>
        rw [← (List.cons.inj hmiddle).1]
        exact ⟨field, by simp⟩
    · cases middle with
      | nil => exact ParserCallback.noConfusion (List.cons.inj hmiddle).1
      | cons first middle =>
        have hmem : first ∈ urls.map ParserCallback.url := by
          rw [hurls]
          simp
        rw [← (List.cons.inj hmiddle).1] at hmem
        simp at hmem

/-! ## Every prefix of the callbacks -/

theorem headerSeen_snoc {seen : List ParserCallback} {callback : ParserCallback} :
    HeaderSeen (seen ++ [callback]) ↔ HeaderSeen seen ∨ ∃ text, callback = .headerField text := by
  simp only [HeaderSeen, List.mem_append, List.mem_singleton, exists_or, eq_comm]

/-- Along the callbacks the index stays in the last pair, and there is one as soon as a field was
seen. -/
theorem lastPair_foldl {seen : List ParserCallback} (h : EachAfter ValueAfterField seen) :
    let request := seen.foldl onCallback httpRequestInit
    LastPair request.headers request.headersIndex ∧ (HeaderSeen seen → request.headers ≠ []) := by
  induction seen using List.reverseRecOn with
  | nil =>
    refine ⟨⟨rfl, fun _ => rfl, fun hne => absurd rfl hne, fun k hk => ?_⟩, ?_⟩
    · exact absurd hk (Nat.not_lt_zero _)
    · rintro ⟨text, htext⟩
      exact absurd htext List.not_mem_nil
  | append_singleton seen callback ih =>
    obtain ⟨hseen, hafter⟩ := eachAfter_snoc.mp h
    obtain ⟨hpair, hfilled⟩ := ih hseen
    rw [List.foldl_append, List.foldl_cons, List.foldl_nil, headerSeen_snoc]
    cases callback with
    | url text | body text | messageComplete method =>
      refine ⟨hpair, fun hheader => ?_⟩
      rcases hheader with hheader | ⟨other, hother⟩
      · exact hfilled hheader
      · exact ParserCallback.noConfusion hother
    | headerField text => exact ⟨(hpair.headerField text).1, fun _ => (hpair.headerField text).2⟩
    | headerValue text =>
      have hvalue := hpair.headerValue (hfilled (hafter text rfl)) text
      exact ⟨hvalue.1, fun _ => hvalue.2⟩

/-! ## The whole message -/

theorem findHeader_pairs (name : Bytes) (headers : List (Bytes × Bytes)) :
    findHeader name (headers.flatMap fun header => [some header.1, some header.2]) =
      (headers.find? fun header => header.1 = name).map Prod.snd := by
  induction headers with
  | nil => rfl
  | cons header headers ih =>
    rw [List.flatMap_cons, List.cons_append, List.cons_append, List.nil_append, findHeader]
    by_cases hname : header.1 = name
    · rw [if_pos (by rw [hname]), List.find?_cons_of_pos (by simpa using hname)]
      rfl
    · rw [if_neg (by simpa using hname), ih, List.find?_cons_of_neg (by simpa using hname)]

theorem getElem?_pairs (headers : List (Bytes × Bytes)) {i : ℕ} (h : i < headers.length) :
    let slots := headers.flatMap fun header => [some header.1, some header.2]
    slots[2 * i]? = some (some (headers.get ⟨i, h⟩).1) ∧
      slots[2 * i + 1]? = some (some (headers.get ⟨i, h⟩).2) := by
  induction headers generalizing i with
  | nil => exact absurd h (Nat.not_lt_zero _)
  | cons header headers ih =>
    cases i with
    | zero => exact ⟨rfl, rfl⟩
    | succ i => exact ih (Nat.lt_of_succ_lt_succ h)

theorem reassembled_httpRequestOf (message : HttpMessage) :
    Reassembled message (httpRequestOf message) where
  complete := ⟨rfl, rfl⟩
  url := rfl
  headersSize := by
    simp only [httpRequestOf, List.length_flatMap, List.length_cons, List.length_nil]
    simp [mul_comm]
  header i h := getElem?_pairs message.headers h
  data := rfl
  getHeader name := findHeader_pairs (ascii name) message.headers

theorem request_reassembled {message : HttpMessage} {callbacks : List ParserCallback}
    (hplain : message.Plain) (h : Delivers message callbacks) :
    Reassembled message (callbacks.foldl onCallback httpRequestInit) ∧
      ∀ seen, seen <+: callbacks → HeadersRight seen (seen.foldl onCallback httpRequestInit) := by
  constructor
  · rw [foldl_delivers hplain h]
    exact reassembled_httpRequestOf message
  · rintro seen ⟨rest, rfl⟩
    have hordered : EachAfter ValueAfterField seen := fun before callback after heq =>
      delivers_ordered h before callback (after ++ rest) (by rw [heq]; simp)
    obtain ⟨hpair, hfilled⟩ := lastPair_foldl hordered
    exact ⟨hpair.even, fun hseen => (hpair.last (hfilled hseen)).1, hpair.fields⟩

/-- Two headers of one name, the first without a value, in fragments that may be empty. -/
def fragmentedMessage : HttpMessage :=
  ⟨"GET", ascii "/a", [(ascii "K", []), (ascii "K", ascii "v")], [0]⟩

def fragments : List ParserCallback :=
  [.url (ascii "/"), .url [], .url (ascii "a"), .headerField [], .headerField (ascii "K"),
    .headerValue [], .headerField (ascii "K"), .headerValue (ascii "v"), .headerValue [],
    .body [0], .messageComplete "GET"]

theorem delivers_fragments : Delivers fragmentedMessage fragments :=
  ⟨[ascii "/", [], ascii "a"], [[0]],
    [[.headerField [], .headerField (ascii "K"), .headerValue []],
      [.headerField (ascii "K"), .headerValue (ascii "v"), .headerValue []]],
    by decide, rfl,
    .cons ⟨[[], ascii "K"], [[]], by decide, by decide, rfl, rfl, rfl⟩
      (.cons ⟨[ascii "K"], [ascii "v", []], by decide, by decide, rfl, rfl, rfl⟩ .nil),
    rfl, rfl⟩

theorem request_reassembled_fragments :
    Reassembled fragmentedMessage (fragments.foldl onCallback httpRequestInit) ∧
      ∀ seen, seen <+: fragments → HeadersRight seen (seen.foldl onCallback httpRequestInit) :=
  request_reassembled ⟨by decide, by decide⟩ delivers_fragments

end WinAirPlay
