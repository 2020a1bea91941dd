import Mathlib.Algebra.Order.BigOperators.Group.List
import WinAirPlay.Foundations.CheckedMemory
import WinAirPlay.Http.Response

/-! # The memory of the response object

`http_response.cpp` on the block that `data` points to. The block is sized anew for every piece
that is added: from `data_size`, which stays 1024, the size doubles until it has room for 1024
bytes and the piece, whatever `data_length` is. A short piece after a long one shrinks the block.
An allocation does not fail; a C string is the list of its bytes before the terminating zero.
-/

namespace WinAirPlay.ResponseBuffer
open Foundations.ByteBuffer Foundations.CheckedMemory
set_option autoImplicit false

/-- `http_response_s`; the allocated capacity is the length of `data`. -/
structure HttpResponseS where
  complete : Bool
  disconnect : Bool
  data : Bytes
  dataSize : ℤ
  dataLength : ℤ
  deriving DecidableEq

def httpResponseAddData (garbage : ℕ → UInt8) (response : HttpResponseS) (data : Bytes)
    (datalen : ℤ) : Checked HttpResponseS := do
  assertThat (0 < datalen)
  let limit ← addInt response.dataSize datalen
  let newdatasize ← doubleUntil 31 limit response.dataSize
  let block ← (if newdatasize ≠ response.dataSize then realloc garbage response.data newdatasize
    else .ok response.data)
  let block ← writeRange block response.dataLength (← readRange data 0 datalen)
  let dataLength ← addInt response.dataLength datalen
  .ok { response with data := block, dataLength := dataLength }

/-- `http_response_add_data(response, s, strlen(s))`. -/
def addString (garbage : ℕ → UInt8) (response : HttpResponseS) (s : Bytes) :
    Checked HttpResponseS :=
  httpResponseAddData garbage response s (intOf s.length)

/-- `snprintf` of a number into `size` bytes, the last of them for the zero. -/
def snprintf (size n : ℕ) : Bytes := (ascii (toString n)).take (size - 1)

/-- The object before its first line is added. -/
def fresh (garbage : ℕ → UInt8) : HttpResponseS where
  complete := false
  disconnect := false
  data := (List.range 1024).map garbage
  dataSize := 1024
  dataLength := 0

def httpResponseInit (garbage : ℕ → UInt8) (protocol : Bytes) (code : ℕ) (message : Bytes) :
    Checked HttpResponseS := do
  assertThat (100 ≤ code ∧ code < 1000)
  let response := fresh garbage
  let response ← addString garbage response protocol
  let response ← addString garbage response (ascii " ")
  let response ← addString garbage response (snprintf 4 code)
  let response ← addString garbage response (ascii " ")
  let response ← addString garbage response message
  addString garbage response (ascii "\r\n")

def httpResponseAddHeader (garbage : ℕ → UInt8) (response : HttpResponseS) (name value : Bytes) :
    Checked HttpResponseS := do
  let response ← addString garbage response name
  let response ← addString garbage response (ascii ": ")
  let response ← addString garbage response value
  addString garbage response (ascii "\r\n")

/-- `data` is `none` for `NULL`. -/
def httpResponseFinish (garbage : ℕ → UInt8) (response : HttpResponseS) (data : Option Bytes)
    (datalen : ℤ) : Checked HttpResponseS := do
  assertThat (datalen = 0 ∨ data.isSome ∧ 0 < datalen)
  let response ←
    (if data.isSome ∧ 0 < datalen then do
      let response ← addString garbage response (ascii "Content-Length")
      let response ← addString garbage response (ascii ": ")
      let response ← addString garbage response (snprintf 15 datalen.toNat)
      let response ← addString garbage response (ascii "\r\n\r\n")
      httpResponseAddData garbage response (data.getD []) datalen
    else addString garbage response (ascii "\r\n"))
  .ok { response with complete := true }

def httpResponseGetData (response : HttpResponseS) : Checked (Bytes × ℤ) := do
  assertThat response.complete
  .ok (response.data, response.dataLength)

/-- A call that adds to a response; the length of a body is an `int`. -/
inductive Call
  | addHeader (name value : Bytes)
  | finish (body : Bytes) (hint : body.length < 2 ^ 31)

def Call.run (garbage : ℕ → UInt8) (response : HttpResponseS) : Call → Checked HttpResponseS
  | addHeader name value => httpResponseAddHeader garbage response name value
  | finish body _ => httpResponseFinish garbage response (some body) body.length

/-- `http_response_init` and the calls after it. -/
def respond (garbage : ℕ → UInt8) (protocol : Bytes) (code : ℕ) (message : Bytes)
    (calls : List Call) : Checked HttpResponseS := do
  calls.foldlM (Call.run garbage) (← httpResponseInit garbage protocol code message)

/-! ## The pieces

Every call adds a list of pieces, one `http_response_add_data` after the other.
-/

def Call.pieces : Call → List Bytes
  | addHeader name value => [name, ascii ": ", value, ascii "\r\n"]
  | finish body _ =>
    if body = [] then [ascii "\r\n"]
    else [ascii "Content-Length", ascii ": ", snprintf 15 body.length, ascii "\r\n\r\n", body]

def pieces (protocol : Bytes) (code : ℕ) (message : Bytes) (calls : List Call) : List Bytes :=
  [protocol, ascii " ", snprintf 4 code, ascii " ", message, ascii "\r\n"] ++
    calls.flatMap Call.pieces

def addPieces (garbage : ℕ → UInt8) (ps : List Bytes) (response : HttpResponseS) :
    Checked HttpResponseS :=
  ps.foldlM (addString garbage) response

/-- The flag that `http_response_finish` sets. -/
def Call.completes : Call → Bool
  | addHeader _ _ => false
  | finish _ _ => true

theorem addString_complete (garbage : ℕ → UInt8) (response : HttpResponseS) (s : Bytes)
    (complete : Bool) :
    addString garbage { response with complete := complete } s =
      addString garbage response s >>= fun r => .ok { r with complete := complete } := by
  simp only [addString, httpResponseAddData, bind_assoc, ok_bind]

theorem addPieces_complete (garbage : ℕ → UInt8) (ps : List Bytes) (response : HttpResponseS)
    (complete : Bool) :
    addPieces garbage ps { response with complete := complete } =
      addPieces garbage ps response >>= fun r => .ok { r with complete := complete } := by
  induction ps generalizing response with
  | nil => rfl
  | cons s ps ih =>
    simp only [addPieces, List.foldlM_cons, addString_complete, bind_assoc, ok_bind]
    congr 1
    funext r
    exact ih r

theorem addPieces_append (garbage : ℕ → UInt8) (ps qs : List Bytes) (response : HttpResponseS) :
    addPieces garbage (ps ++ qs) response =
      addPieces garbage ps response >>= addPieces garbage qs := by
  rw [addPieces, List.foldlM_append]
  rfl

theorem addPieces_cons (garbage : ℕ → UInt8) (s : Bytes) (ps : List Bytes) :
    addPieces garbage (s :: ps) =
      fun response => addString garbage response s >>= addPieces garbage ps := by
  funext response
  exact List.foldlM_cons

theorem addPieces_nil (garbage : ℕ → UInt8) : addPieces garbage [] = Except.ok := rfl

theorem httpResponseInit_eq (garbage : ℕ → UInt8) (protocol : Bytes) {code : ℕ} (message : Bytes)
    (hcode : 100 ≤ code ∧ code < 1000) :
    httpResponseInit garbage protocol code message =
      addPieces garbage [protocol, ascii " ", snprintf 4 code, ascii " ", message, ascii "\r\n"]
        (fresh garbage) := by
  rw [httpResponseInit, assertThat_true hcode, ok_bind]
  simp only [addPieces_cons, addPieces_nil, bind_ok]

theorem httpResponseAddHeader_eq (garbage : ℕ → UInt8) (response : HttpResponseS)
    (name value : Bytes) :
    httpResponseAddHeader garbage response name value =
      addPieces garbage (Call.addHeader name value).pieces response := by
  rw [httpResponseAddHeader]
  simp only [Call.pieces, addPieces_cons, addPieces_nil, bind_ok]

/-- A call adds its pieces; `http_response_finish` then sets `complete`. -/
theorem Call.run_eq (garbage : ℕ → UInt8) (call : Call) (response : HttpResponseS)
    (complete : Bool) :
    call.run garbage { response with complete := complete } =
      addPieces garbage call.pieces response >>= fun r =>
        .ok { r with complete := complete || call.completes } := by
  cases call with
  | addHeader name value =>
    rw [Call.run, httpResponseAddHeader]
    simp only [Call.pieces, Call.completes, addPieces_cons, addPieces_nil, addString_complete,
      bind_assoc, ok_bind, Bool.or_false]
  | finish body hint =>
    have hbody : ∀ r, httpResponseAddData garbage r body (body.length : ℤ) =
        addString garbage r body := by
      intro r
      rw [addString, intOf_nat hint]
    rw [Call.run, httpResponseFinish]
    by_cases h : body = []
    · subst h
      rw [assertThat_true (.inl rfl), ok_bind, if_neg (by simp)]
      simp only [Call.pieces, if_true, Call.completes, addPieces_cons, addPieces_nil,
        addString_complete, bind_assoc, ok_bind, Bool.or_true]
    · have hpos : (some body).isSome ∧ (0 : ℤ) < body.length :=
        ⟨rfl, by have := List.length_pos_iff.mpr h; omega⟩
      rw [assertThat_true (.inr hpos), ok_bind, if_pos hpos]
      simp only [Call.pieces, if_neg h, Call.completes, addPieces_cons, addPieces_nil,
        addString_complete, bind_assoc, ok_bind, Bool.or_true, Option.getD_some, hbody,
        Int.toNat_natCast]

theorem foldlM_calls (garbage : ℕ → UInt8) (calls : List Call) (response : HttpResponseS)
    (complete : Bool) :
    calls.foldlM (Call.run garbage) { response with complete := complete } =
      addPieces garbage (calls.flatMap Call.pieces) response >>= fun r =>
        .ok { r with complete := complete || calls.any Call.completes } := by
  induction calls generalizing response complete with
  | nil =>
    rw [List.any_nil, Bool.or_false]
    rfl
  | cons call calls ih =>
    rw [List.foldlM_cons, Call.run_eq, List.flatMap_cons, addPieces_append]
    simp only [bind_assoc, ok_bind, List.any_cons, ← Bool.or_assoc]
    congr 1
    funext r
    exact ih r _

/-- The run of the source adds the pieces one after the other and sets `complete`. -/
theorem respond_eq (garbage : ℕ → UInt8) (protocol : Bytes) {code : ℕ} (message : Bytes)
    (calls : List Call) (hcode : 100 ≤ code ∧ code < 1000) :
    respond garbage protocol code message calls =
      addPieces garbage (pieces protocol code message calls) (fresh garbage) >>= fun r =>
        .ok { r with complete := calls.any Call.completes } := by
  have hinit : httpResponseInit garbage protocol code message =
      addPieces garbage [protocol, ascii " ", snprintf 4 code, ascii " ", message, ascii "\r\n"]
        (fresh garbage) >>= fun r => .ok { r with complete := false } := by
    have hfresh : { fresh garbage with complete := false } = fresh garbage := by
      simp only [fresh]
    rw [← addPieces_complete, hfresh, httpResponseInit_eq garbage protocol message hcode]
  rw [respond, hinit, pieces, addPieces_append]
  simp only [bind_assoc, ok_bind]
  congr 1
  funext r
  rw [foldlM_calls, Bool.false_or]

/-! ## What one piece does -/

/-- The capacity covers `data_length`, and the first `data_length` bytes are the `ps` in order. -/
structure Holds (response : HttpResponseS) (ps : List Bytes) : Prop where
  dataSize : response.dataSize = 1024
  dataLength : response.dataLength = ps.flatten.length
  covered : ps.flatten.length ≤ response.data.length
  text : response.data.take ps.flatten.length = ps.flatten

/-- A piece `s` fits after the pieces `ps`: it is not empty, the doubling stays an `int`, and the
sizes `1024 * 2 ^ k` with room for 1024 bytes and the piece have room for everything so far. -/
structure PieceFits (ps : List Bytes) (s : Bytes) : Prop where
  nonempty : 0 < s.length
  doubles : s.length ≤ 2 ^ 30 - 1024
  room : ∀ k, 1024 + s.length ≤ 1024 * 2 ^ k → ps.flatten.length + s.length ≤ 1024 * 2 ^ k

theorem fresh_holds (garbage : ℕ → UInt8) : Holds (fresh garbage) [] where
  dataSize := rfl
  dataLength := rfl
  covered := Nat.zero_le _
  text := List.take_zero

/-- The block that `http_response_add_data` copies `n` bytes into has the first size `1024 * 2 ^ k`
with room for 1024 bytes and these, and keeps what fits. -/
theorem httpResponseAddData_block (garbage : ℕ → UInt8) {response : HttpResponseS} {data : Bytes}
    {n : ℕ} (hsize : response.dataSize = 1024) (hpos : 0 < n) (hlen : n ≤ 2 ^ 30 - 1024)
    (hdata : n ≤ data.length) :
    ∃ (k : ℕ) (block : Bytes), block.length = 1024 * 2 ^ k ∧ 1024 + n ≤ 1024 * 2 ^ k ∧
      (∀ j < k, 1024 * 2 ^ j < 1024 + n) ∧
      (∀ m, m ≤ response.data.length → m ≤ 1024 * 2 ^ k →
        block.take m = response.data.take m) ∧
      httpResponseAddData garbage response data n =
        (writeRange block response.dataLength (data.take n) >>= fun block =>
          addInt response.dataLength n >>= fun dataLength =>
            .ok { response with data := block, dataLength := dataLength }) := by
  have hlimit : addInt response.dataSize (n : ℤ) = .ok ((1024 + n : ℕ) : ℤ) := by
    rw [hsize]
    exact addInt_nat (a := 1024) (by omega)
  obtain ⟨k, hk, hroom, hfirst⟩ := @doubleUntil_ok 31 (1024 + n) 1024 (by omega)
    (fun j hj => by rw [Nat.pow_succ]; omega)
  have hgrow : doubleUntil 31 ((1024 + n : ℕ) : ℤ) response.dataSize =
      .ok ((1024 * 2 ^ k : ℕ) : ℤ) := by
    rw [hsize]
    exact hk
  have hne : ((1024 * 2 ^ k : ℕ) : ℤ) ≠ response.dataSize := by
    rw [hsize]
    intro heq
    omega
  obtain ⟨block, hblock, hlength, hkeeps⟩ := realloc_nat garbage response.data (1024 * 2 ^ k)
  refine ⟨k, block, hlength, hroom, hfirst, hkeeps, ?_⟩
  have hread : readRange data 0 (n : ℤ) = .ok (data.take n) := by
    rw [@readRange_eq data 0 n 0 n rfl rfl (by omega), slice, List.drop_zero]
  rw [httpResponseAddData, assertThat_true (by omega), ok_bind, hlimit, ok_bind,
    hgrow, ok_bind, if_pos hne, hblock, ok_bind, hread, ok_bind]

theorem addString_block (garbage : ℕ → UInt8) {response : HttpResponseS} {s : Bytes}
    (hsize : response.dataSize = 1024) (hpos : 0 < s.length) (hlen : s.length ≤ 2 ^ 30 - 1024) :
    ∃ (k : ℕ) (block : Bytes), block.length = 1024 * 2 ^ k ∧ 1024 + s.length ≤ 1024 * 2 ^ k ∧
      (∀ j < k, 1024 * 2 ^ j < 1024 + s.length) ∧
      (∀ m, m ≤ response.data.length → m ≤ 1024 * 2 ^ k →
        block.take m = response.data.take m) ∧
      addString garbage response s = (writeRange block response.dataLength s >>= fun block =>
        addInt response.dataLength s.length >>= fun dataLength =>
          .ok { response with data := block, dataLength := dataLength }) := by
  have hblock := httpResponseAddData_block garbage hsize hpos hlen (le_refl s.length)
  rw [List.take_length] at hblock
  rw [addString, intOf_nat (by omega)]
  exact hblock

theorem holds_snoc_iff {response : HttpResponseS} {ps : List Bytes} {s : Bytes} :
    Holds response (ps ++ [s]) ↔ response.dataSize = 1024 ∧
      response.dataLength = ps.flatten.length + s.length ∧
      ps.flatten.length + s.length ≤ response.data.length ∧
      response.data.take (ps.flatten.length + s.length) = ps.flatten ++ s := by
  have hflat : (ps ++ [s]).flatten = ps.flatten ++ s := by simp
  constructor
  · rintro ⟨hsize, hlen, hcov, htext⟩
    rw [hflat, List.length_append] at hlen hcov htext
    exact ⟨hsize, by rw [hlen]; push_cast; rfl, hcov, htext⟩
  · rintro ⟨hsize, hlen, hcov, htext⟩
    exact ⟨hsize, by rw [hflat, List.length_append, hlen]; push_cast; rfl,
      by rw [hflat, List.length_append]; exact hcov,
      by rw [hflat, List.length_append]; exact htext⟩

theorem addString_fits (garbage : ℕ → UInt8) {response : HttpResponseS} {ps : List Bytes}
    {s : Bytes} (h : Holds response ps) (hfits : PieceFits ps s) :
    ∃ response', addString garbage response s = .ok response' ∧ Holds response' (ps ++ [s]) := by
  obtain ⟨k, block, hlength, hroom, hfirst, hkeeps, hadd⟩ :=
    addString_block garbage h.dataSize hfits.nonempty hfits.doubles
  have htotal := hfits.room k hroom
  -- the size before the last doubling had no room for the piece
  have hint : ps.flatten.length + s.length < 2 ^ 31 := by
    have hdoubles := hfits.doubles
    cases k with
    | zero => omega
    | succ k =>
      have := hfirst k (by omega)
      rw [Nat.pow_succ] at htotal
      omega
  have hlen : addInt response.dataLength s.length =
      .ok ((ps.flatten.length + s.length : ℕ) : ℤ) := by
    rw [h.dataLength]
    exact addInt_nat hint
  rw [hadd, h.dataLength, writeRange_nat (by omega), ok_bind, ← h.dataLength, hlen, ok_bind]
  refine ⟨_, rfl, holds_snoc_iff.mpr ⟨h.dataSize, by push_cast; rfl, ?_, ?_⟩⟩
  · rw [length_writeAt (by omega)]
    omega
  · rw [take_writeAt (by omega), hkeeps _ h.covered (by omega), h.text]

theorem addString_dataLength {garbage : ℕ → UInt8} {response response' : HttpResponseS}
    {s : Bytes} (hadd : addString garbage response s = .ok response') :
    response'.dataLength = response.dataLength + intOf s.length := by
  rw [addString, httpResponseAddData] at hadd
  obtain ⟨-, -, hadd⟩ := bind_eq_ok.mp hadd
  obtain ⟨limit, -, hadd⟩ := bind_eq_ok.mp hadd
  obtain ⟨newdatasize, -, hadd⟩ := bind_eq_ok.mp hadd
  obtain ⟨block, -, hadd⟩ := bind_eq_ok.mp hadd
  obtain ⟨src, -, hadd⟩ := bind_eq_ok.mp hadd
  obtain ⟨block', -, hadd⟩ := bind_eq_ok.mp hadd
  obtain ⟨dataLength, hlen, hadd⟩ := bind_eq_ok.mp hadd
  cases hadd
  exact addInt_eq hlen

/-- No bytes fail the assertion, and so many that the size would have to double past `2 ^ 30`
overflow it. -/
theorem httpResponseAddData_faults (garbage : ℕ → UInt8) {response : HttpResponseS} (data : Bytes)
    {n : ℤ} (hsize : response.dataSize = 1024) (h : n ≤ 0 ∨ 2 ^ 30 - 1024 < n) :
    Faults (httpResponseAddData garbage response data n) := by
  rw [httpResponseAddData]
  by_cases hpos : 0 < n
  · have hlarge : 2 ^ 30 - 1024 < n := by omega
    obtain ⟨m, rfl⟩ := Int.eq_ofNat_of_zero_le hpos.le
    rw [assertThat_true hpos, ok_bind, hsize]
    by_cases hadd : 1024 + m < 2 ^ 31
    · have hlimit : addInt 1024 (m : ℤ) = .ok ((1024 + m : ℕ) : ℤ) := addInt_nat (a := 1024) hadd
      rw [hlimit, ok_bind]
      exact (doubleUntil_fault 31 10 (by omega) (by omega)).bind _
    · exact (addInt_fault (a := 1024) (by omega)).bind _
  · exact (assertThat_fault hpos).bind _

theorem addString_not_fits (garbage : ℕ → UInt8) {response response' : HttpResponseS}
    {ps : List Bytes} {s : Bytes} (h : Holds response ps) (hfits : ¬ PieceFits ps s)
    (hadd : addString garbage response s = .ok response') : ¬ Holds response' (ps ++ [s]) := by
  intro h'
  by_cases hint : s.length < 2 ^ 31
  · by_cases hlen : s.length = 0 ∨ 2 ^ 30 - 1024 < s.length
    · have hfault : Faults (addString garbage response s) := by
        rw [addString, intOf_nat hint]
        exact httpResponseAddData_faults garbage s h.dataSize (by omega)
      exact not_faults_iff.mpr ⟨response', hadd⟩ hfault
    · obtain ⟨k, block, hlength, hroom, hfirst, -, hblock⟩ :=
        addString_block (s := s) garbage h.dataSize (by omega) (by omega)
      -- a size that has room for the piece but not for the whole text is no smaller than the block
      obtain ⟨j, hj, htotal⟩ : ∃ j, 1024 + s.length ≤ 1024 * 2 ^ j ∧
          1024 * 2 ^ j < ps.flatten.length + s.length := by
        by_contra hno
        exact hfits ⟨by omega, by omega, fun j hj => by
          by_contra hlt
          exact hno ⟨j, hj, by omega⟩⟩
      have hkj : k ≤ j := by
        by_contra hlt
        have := hfirst j (by omega)
        omega
      have hpow : 2 ^ k ≤ 2 ^ j := Nat.pow_le_pow_right (by omega) hkj
      have hout : (block.length : ℤ) < response.dataLength + s.length := by
        rw [h.dataLength]
        omega
      rw [hblock] at hadd
      exact not_faults_iff.mpr ⟨response', hadd⟩ ((writeRange_fault hout).bind _)
  · -- more than an `int` counts: `data_length` is not the length of the text
    have hlen := addString_dataLength hadd
    have hlt := intOf_lt s.length
    obtain ⟨-, hlen', -, -⟩ := holds_snoc_iff.mp h'
    rw [h.dataLength] at hlen
    omega

/-! ## The whole response -/

/-- After every piece the response holds exactly the pieces added so far, and the calls return. -/
structure Exact (garbage : ℕ → UInt8) (protocol : Bytes) (code : ℕ) (message : Bytes)
    (calls : List Call) : Prop where
  everyPiece : ∀ ps, ps <+: pieces protocol code message calls →
    ∃ response, addPieces garbage ps (fresh garbage) = .ok response ∧ Holds response ps
  returns : ∃ response, respond garbage protocol code message calls = .ok response ∧
    Holds response (pieces protocol code message calls)

theorem everyPiece_iff (garbage : ℕ → UInt8) (ps : List Bytes) :
    (∀ qs, qs <+: ps →
      ∃ response, addPieces garbage qs (fresh garbage) = .ok response ∧ Holds response qs) ↔
    ∀ before s after, ps = before ++ s :: after → PieceFits before s :=
  @foldlM_prefix_iff _ _ (addString garbage) Holds PieceFits (fresh garbage)
    (fresh_holds garbage) (addString_fits garbage) (addString_not_fits garbage) ps

/-- The response is exact exactly when every piece fits after the pieces before it. -/
theorem response_exact_iff (garbage : ℕ → UInt8) (protocol : Bytes) (code : ℕ) (message : Bytes)
    (calls : List Call) (hcode : 100 ≤ code ∧ code < 1000) :
    Exact garbage protocol code message calls ↔
      ∀ before s after, pieces protocol code message calls = before ++ s :: after →
        PieceFits before s := by
  have hpieces := everyPiece_iff garbage (pieces protocol code message calls)
  constructor
  · intro h
    exact hpieces.mp h.everyPiece
  · intro h
    have hall := hpieces.mpr h
    refine ⟨hall, ?_⟩
    obtain ⟨response, hrun, hholds⟩ := hall _ (List.prefix_refl _)
    refine ⟨{ response with complete := calls.any Call.completes }, ?_,
      hholds.dataSize, hholds.dataLength, hholds.covered, hholds.text⟩
    rw [respond_eq garbage protocol message calls hcode, hrun, ok_bind]

/-! ## Whether the calls return

A longer text than an `int` counts is added in part. The calls return all the same if the sizes that
`http_response_add_data` is given fit.
-/

/-- After `m` bytes, `n` more are added. -/
structure SizeFits (m n : ℤ) : Prop where
  positive : 0 < n
  doubles : n ≤ 2 ^ 30 - 1024
  room : ∀ k : ℕ, 1024 + n ≤ 1024 * 2 ^ k → m + n ≤ 1024 * 2 ^ k

def SizesFit : ℤ → List ℤ → Prop
  | _, [] => True
  | m, n :: ns => SizeFits m n ∧ SizesFit (m + n) ns

/-- The sizes that the pieces are added with. -/
def sizes (ps : List Bytes) : List ℤ := ps.map fun s => intOf s.length

/-- `data_size` and `data_length` after `m` bytes. -/
structure Sized (response : HttpResponseS) (m : ℤ) : Prop where
  dataSize : response.dataSize = 1024
  dataLength : response.dataLength = m
  nonneg : 0 ≤ m

theorem Sized.disconnect {response : HttpResponseS} {m : ℤ} (h : Sized response m)
    (disconnect : Bool) : Sized { response with disconnect := disconnect } m :=
  ⟨h.dataSize, h.dataLength, h.nonneg⟩

theorem fresh_sized (garbage : ℕ → UInt8) : Sized (fresh garbage) 0 := ⟨rfl, rfl, le_refl 0⟩

theorem addString_sized (garbage : ℕ → UInt8) {response : HttpResponseS} {m : ℤ} {s : Bytes}
    (h : Sized response m) (hfits : SizeFits m (intOf s.length)) :
    ∃ response', addString garbage response s = .ok response' ∧
      Sized response' (m + intOf s.length) := by
  have hle := intOf_le s.length
  obtain ⟨hpos, hdoubles, hroom⟩ := hfits
  rw [addString]
  generalize intOf s.length = n at hle hpos hdoubles hroom
  obtain ⟨n, rfl⟩ := Int.eq_ofNat_of_zero_le hpos.le
  obtain ⟨k, block, hlength, hfull, hfirst, -, hadd⟩ :=
    @httpResponseAddData_block garbage response s n h.dataSize (by omega) (by omega) (by omega)
  have htotal := hroom k (by exact_mod_cast hfull)
  have hnonneg := h.nonneg
  have htake : (s.take n).length = n := by rw [List.length_take]; omega
  have hbound : 1024 * 2 ^ k < 2 ^ 31 := by
    cases k with
    | zero => omega
    | succ k =>
      have := hfirst k (by omega)
      rw [Nat.pow_succ]
      omega
  have hcast : ((1024 * 2 ^ k : ℕ) : ℤ) = 1024 * 2 ^ k := by push_cast; rfl
  have hint : addInt m (n : ℤ) = .ok (m + n) := by
    rw [addInt, if_pos (by omega)]
  rw [hadd, h.dataLength, writeRange, if_pos (by rw [htake, hlength]; omega), ok_bind, hint, ok_bind]
  exact ⟨_, rfl, h.dataSize, rfl, by omega⟩

theorem addString_unsized (garbage : ℕ → UInt8) {response : HttpResponseS} {m : ℤ} {s : Bytes}
    (h : Sized response m) (hfits : ¬ SizeFits m (intOf s.length)) :
    Faults (addString garbage response s) := by
  have hle := intOf_le s.length
  rw [addString]
  generalize intOf s.length = n at hle hfits
  by_cases hlen : n ≤ 0 ∨ 2 ^ 30 - 1024 < n
  · exact httpResponseAddData_faults garbage s h.dataSize hlen
  · obtain ⟨n, rfl⟩ := Int.eq_ofNat_of_zero_le (by omega : 0 ≤ n)
    obtain ⟨k, block, hlength, hfull, hfirst, -, hadd⟩ :=
      @httpResponseAddData_block garbage response s n h.dataSize (by omega) (by omega) (by omega)
    -- a size that has room for the piece but not for the whole text is no smaller than the block
    obtain ⟨j, hj, htotal⟩ : ∃ j : ℕ, 1024 + (n : ℤ) ≤ 1024 * 2 ^ j ∧ 1024 * 2 ^ j < m + n := by
      by_contra hno
      exact hfits ⟨by omega, by omega, fun j hj => by
        by_contra hlt
        exact hno ⟨j, hj, by omega⟩⟩
    have hkj : k ≤ j := by
      by_contra hlt
      have := hfirst j (by omega)
      have hcast : ((1024 * 2 ^ j : ℕ) : ℤ) = 1024 * 2 ^ j := by push_cast; rfl
      omega
    have hpow : (2 : ℤ) ^ k ≤ 2 ^ j := by exact_mod_cast Nat.pow_le_pow_right (by omega) hkj
    have hcast : (block.length : ℤ) = 1024 * 2 ^ k := by rw [hlength]; push_cast; rfl
    have htake : (s.take n).length = n := by rw [List.length_take]; omega
    rw [hadd]
    exact (writeRange_fault (by rw [h.dataLength, htake]; omega)).bind _

/-- Pieces whose sizes fit one after the other are added, and others are not. -/
theorem addPieces_sized (garbage : ℕ → UInt8) {ps : List Bytes} {response : HttpResponseS} {m : ℤ}
    (h : Sized response m) (hfits : SizesFit m (sizes ps)) :
    ∃ response', addPieces garbage ps response = .ok response' ∧
      Sized response' (m + (sizes ps).sum) := by
  induction ps generalizing response m with
  | nil => exact ⟨response, rfl, by simpa [sizes] using h⟩
  | cons s ps ih =>
    obtain ⟨response₁, hadd, h₁⟩ := addString_sized garbage h hfits.1
    obtain ⟨response₂, hrest, h₂⟩ := ih h₁ hfits.2
    refine ⟨response₂, ?_, ?_⟩
    · rw [addPieces_cons]
      dsimp only
      rw [hadd, ok_bind, hrest]
    · rw [sizes, List.map_cons, List.sum_cons, ← Int.add_assoc]
      exact h₂

theorem addPieces_unsized (garbage : ℕ → UInt8) {ps : List Bytes} {response : HttpResponseS}
    {m : ℤ} (h : Sized response m) (hfits : ¬ SizesFit m (sizes ps)) :
    Faults (addPieces garbage ps response) := by
  induction ps generalizing response m with
  | nil => exact absurd trivial hfits
  | cons s ps ih =>
    rw [addPieces_cons]
    dsimp only
    by_cases hfirst : SizeFits m (intOf s.length)
    · obtain ⟨response', hadd, h'⟩ := addString_sized garbage h hfirst
      rw [hadd, ok_bind]
      exact ih h' fun hrest => hfits ⟨hfirst, hrest⟩
    · exact (addString_unsized garbage h hfirst).bind _

/-- What a run that returns says about the sizes. -/
theorem addPieces_ok {garbage : ℕ → UInt8} {ps : List Bytes} {response response' : HttpResponseS}
    {m : ℤ} (h : Sized response m) (hadd : addPieces garbage ps response = .ok response') :
    SizesFit m (sizes ps) ∧ Sized response' (m + (sizes ps).sum) := by
  have hfits : SizesFit m (sizes ps) := by
    by_contra hnot
    exact not_faults_iff.mpr ⟨response', hadd⟩ (addPieces_unsized garbage h hnot)
  obtain ⟨response₁, hadd₁, h₁⟩ := addPieces_sized garbage h hfits
  rw [hadd] at hadd₁
  cases hadd₁
  exact ⟨hfits, h₁⟩

/-- A piece that an `int` counts is added whole or not at all. -/
theorem addPieces_holds {garbage : ℕ → UInt8} {ps qs : List Bytes} {response response' : HttpResponseS}
    (h : Holds response ps) (hint : ∀ q ∈ qs, q.length < 2 ^ 31)
    (hadd : addPieces garbage qs response = .ok response') : Holds response' (ps ++ qs) := by
  induction qs generalizing ps response with
  | nil =>
    cases hadd
    rwa [List.append_nil]
  | cons q qs ih =>
    rw [addPieces_cons] at hadd
    obtain ⟨response₁, hfirst, hrest⟩ := bind_eq_ok.mp hadd
    have hlen := h.dataLength
    have hsized : Sized response ps.flatten.length := ⟨h.dataSize, hlen, by omega⟩
    obtain ⟨hpos, hdoubles, hroom⟩ : SizeFits ps.flatten.length (intOf q.length) := by
      by_contra hnot
      exact not_faults_iff.mpr ⟨response₁, hfirst⟩ (addString_unsized garbage hsized hnot)
    rw [intOf_nat (hint q List.mem_cons_self)] at hpos hdoubles hroom
    have hfits : PieceFits ps q := by
      refine ⟨by omega, by omega, fun k hk => ?_⟩
      exact_mod_cast hroom k (by exact_mod_cast hk)
    obtain ⟨response₂, hadd₂, h₂⟩ := addString_fits garbage h hfits
    obtain rfl : response₁ = response₂ := Except.ok.inj (hfirst.symm.trans hadd₂)
    rw [List.append_cons]
    exact ih h₂ (fun q' hq' => hint q' (List.mem_cons_of_mem q hq')) hrest

/-- What is counted lies within the block. -/
theorem addString_covered {garbage : ℕ → UInt8} {response response' : HttpResponseS} {s : Bytes}
    (hadd : addString garbage response s = .ok response') :
    0 ≤ response'.dataLength ∧ response'.dataLength ≤ response'.data.length := by
  rw [addString, httpResponseAddData] at hadd
  obtain ⟨-, -, hadd⟩ := bind_eq_ok.mp hadd
  obtain ⟨limit, -, hadd⟩ := bind_eq_ok.mp hadd
  obtain ⟨newdatasize, -, hadd⟩ := bind_eq_ok.mp hadd
  obtain ⟨block, -, hadd⟩ := bind_eq_ok.mp hadd
  obtain ⟨src, hsrc, hadd⟩ := bind_eq_ok.mp hadd
  obtain ⟨block', hwrite, hadd⟩ := bind_eq_ok.mp hadd
  obtain ⟨dataLength, hlen, hadd⟩ := bind_eq_ok.mp hadd
  cases hadd
  have hcount : (src.length : ℤ) = intOf s.length := by
    unfold readRange at hsrc
    split_ifs at hsrc with hneg hin
    cases hsrc
    rw [length_slice (by omega)]
    omega
  unfold writeRange at hwrite
  split_ifs at hwrite with hin
  cases hwrite
  have hsum := addInt_eq hlen
  show 0 ≤ dataLength ∧ dataLength ≤ (writeAt block response.dataLength.toNat src).length
  rw [length_writeAt (by omega)]
  omega

theorem addPieces_covered {garbage : ℕ → UInt8} {ps : List Bytes} {response response' : HttpResponseS}
    (hne : ps ≠ []) (hadd : addPieces garbage ps response = .ok response') :
    0 ≤ response'.dataLength ∧ response'.dataLength ≤ response'.data.length := by
  obtain ⟨before, s, rfl⟩ := List.eq_nil_or_concat' ps |>.resolve_left hne
  rw [addPieces_append] at hadd
  obtain ⟨response₁, -, hlast⟩ := bind_eq_ok.mp hadd
  rw [addPieces_cons, addPieces_nil] at hlast
  dsimp only at hlast
  rw [bind_ok] at hlast
  exact addString_covered hlast

theorem sizesFit_append {m : ℤ} {ns ms : List ℤ} :
    SizesFit m (ns ++ ms) ↔ SizesFit m ns ∧ SizesFit (m + ns.sum) ms := by
  induction ns generalizing m with
  | nil => simp [SizesFit]
  | cons n ns ih =>
    rw [List.cons_append, SizesFit, SizesFit, ih, List.sum_cons, Int.add_assoc, and_assoc]

/-- The pieces that `http_response_finish` adds for the data of a handler. -/
def finishPieces (data : Option Bytes) : List Bytes :=
  let body := data.getD []
  if intOf body.length = 0 then [ascii "\r\n"]
  else [ascii "Content-Length", ascii ": ", snprintf 15 (intOf body.length).toNat,
    ascii "\r\n\r\n", body]

theorem httpResponseFinish_eq (garbage : ℕ → UInt8) (response : HttpResponseS)
    {data : Option Bytes} (hcount : 0 ≤ intOf (data.getD []).length) :
    httpResponseFinish garbage response data (intOf (data.getD []).length) =
      addPieces garbage (finishPieces data) response >>= fun r =>
        .ok { r with complete := true } := by
  rw [httpResponseFinish, finishPieces]
  by_cases hzero : intOf (data.getD []).length = 0
  · rw [assertThat_true (.inl hzero), ok_bind, if_neg (by omega)]
    simp only [if_pos hzero, addPieces_cons, addPieces_nil, bind_ok]
  · have hsome : data.isSome := by
      cases data with
      | none => exact absurd rfl hzero
      | some body => rfl
    have hpos : data.isSome ∧ 0 < intOf (data.getD []).length := ⟨hsome, by omega⟩
    rw [assertThat_true (.inr hpos), ok_bind, if_pos hpos]
    simp only [if_neg hzero, addPieces_cons, addPieces_nil, bind_ok, bind_assoc, addString]

theorem httpResponseFinish_sized (garbage : ℕ → UInt8) {response : HttpResponseS} {m : ℤ}
    {data : Option Bytes} (h : Sized response m) (hfits : SizesFit m (sizes (finishPieces data))) :
    ∃ response', httpResponseFinish garbage response data (intOf (data.getD []).length) =
      .ok response' := by
  have hcount : 0 ≤ intOf (data.getD []).length := by
    by_contra hneg
    rw [finishPieces, if_neg (by omega)] at hfits
    have hbody : 0 < intOf (data.getD []).length := hfits.2.2.2.2.1.positive
    omega
  obtain ⟨response', hadd, -⟩ := addPieces_sized garbage h hfits
  exact ⟨_, by rw [httpResponseFinish_eq garbage response hcount, hadd, ok_bind]⟩

theorem httpResponseFinish_unsized (garbage : ℕ → UInt8) {response : HttpResponseS} {m : ℤ}
    {data : Option Bytes} (h : Sized response m)
    (hfits : ¬ SizesFit m (sizes (finishPieces data))) :
    Faults (httpResponseFinish garbage response data (intOf (data.getD []).length)) := by
  by_cases hcount : 0 ≤ intOf (data.getD []).length
  · rw [httpResponseFinish_eq garbage response hcount]
    exact (addPieces_unsized garbage h hfits).bind _
  · rw [httpResponseFinish]
    exact (assertThat_fault (by omega)).bind _

theorem httpResponseFinish_ok {garbage : ℕ → UInt8} {response response' : HttpResponseS} {m : ℤ}
    {data : Option Bytes} (h : Sized response m)
    (hfinish : httpResponseFinish garbage response data (intOf (data.getD []).length) =
      .ok response') : SizesFit m (sizes (finishPieces data)) := by
  by_contra hnot
  exact not_faults_iff.mpr ⟨response', hfinish⟩ (httpResponseFinish_unsized garbage h hnot)

/-- A response that is finished has been added the pieces of the data. -/
theorem httpResponseFinish_pieces {garbage : ℕ → UInt8} {response response' : HttpResponseS}
    {data : Option Bytes}
    (hfinish : httpResponseFinish garbage response data (intOf (data.getD []).length) =
      .ok response') :
    ∃ r, addPieces garbage (finishPieces data) response = .ok r ∧
      response' = { r with complete := true } := by
  have hcount : 0 ≤ intOf (data.getD []).length := by
    by_contra hneg
    refine not_faults_iff.mpr ⟨response', hfinish⟩ ?_
    rw [httpResponseFinish]
    exact (assertThat_fault (by omega)).bind _
  rw [httpResponseFinish_eq garbage response hcount] at hfinish
  obtain ⟨r, hadd, hfinish⟩ := bind_eq_ok.mp hfinish
  cases hfinish
  exact ⟨r, hadd, rfl⟩

theorem finishPieces_ne_nil (data : Option Bytes) : finishPieces data ≠ [] := by
  unfold finishPieces
  dsimp only
  split <;> exact List.cons_ne_nil _ _

/-- Sizes that are positive and at most 2048 together fit. -/
theorem sizesFit_of_short {m : ℤ} {ns : List ℤ} (hm : 0 ≤ m) (hpos : ∀ n ∈ ns, 0 < n)
    (hshort : m + ns.sum ≤ 2048) : SizesFit m ns := by
  induction ns generalizing m with
  | nil => trivial
  | cons n ns ih =>
    rw [List.sum_cons] at hshort
    have hn := hpos n (List.mem_cons_self ..)
    have hrest : 0 ≤ ns.sum :=
      List.sum_nonneg fun k hk => (hpos k (List.mem_cons_of_mem n hk)).le
    refine ⟨⟨hn, by omega, fun k hk => ?_⟩,
      ih (by omega) (fun k hk => hpos k (List.mem_cons_of_mem n hk)) (by omega)⟩
    cases k with
    | zero => omega
    | succ k =>
      have : (0 : ℤ) < 2 ^ k := by exact_mod_cast Nat.two_pow_pos k
      rw [pow_succ]
      omega

/-- Pieces that are not empty and have at most 2048 bytes together fit. -/
theorem pieceFits_of_short {ps before : List Bytes} {s : Bytes} {after : List Bytes}
    (hps : ps = before ++ s :: after) (hne : ∀ p ∈ ps, p ≠ []) (hshort : ps.flatten.length ≤ 2048) :
    PieceFits before s := by
  have hpos : 0 < s.length := List.length_pos_iff.mpr (hne s (by rw [hps]; simp))
  have htotal : before.flatten.length + s.length ≤ 2048 := by
    rw [hps, List.flatten_append, List.flatten_cons, List.length_append, List.length_append]
      at hshort
    omega
  refine ⟨hpos, by omega, fun k hk => ?_⟩
  cases k with
  | zero => omega
  | succ k =>
    have := Nat.two_pow_pos k
    rw [Nat.pow_succ]
    omega

/-- The answer to `CSeq: 1`. -/
theorem response_exact_iff_short :
    Exact (fun _ => 0) (ascii "RTSP/1.0") 200 (ascii "OK")
      [.addHeader (ascii "CSeq") (ascii "1"), .finish [] (by decide)] :=
  (response_exact_iff _ _ 200 _ _ (by decide)).mpr fun _ _ _ h =>
    pieceFits_of_short h (by decide +kernel) (by decide +kernel)

/-- A `CSeq` of 2100 bytes: the block of 4096 bytes shrinks to 2048 for the line end after it. -/
theorem response_overrun :
    ¬ Exact (fun _ => 0) (ascii "RTSP/1.0") 200 (ascii "OK")
      [.addHeader (ascii "CSeq") (List.replicate 2100 49)] := by
  intro h
  have hfits := (everyPiece_iff _ _).mp h.everyPiece
    ([ascii "RTSP/1.0", ascii " ", snprintf 4 200, ascii " ", ascii "OK", ascii "\r\n",
      ascii "CSeq", ascii ": ", List.replicate 2100 49]) (ascii "\r\n") [] rfl
  have := hfits.room 1 (by decide +kernel)
  revert this
  decide +kernel

/-! ## The text of the response -/

theorem ascii_append (s t : String) : ascii (s ++ t) = ascii s ++ ascii t := by
  simp [ascii]

/-- A number with fewer digits than the buffer has bytes is printed in full. -/
theorem snprintf_eq {size n : ℕ} (hsize : 1 < size) (hn : n < 10 ^ (size - 1)) :
    snprintf size n = ascii (toString n) := by
  refine List.take_of_length_le ?_
  rw [ascii, List.length_map, Nat.toString_eq_repr, Nat.toList_repr]
  exact (Nat.length_toDigits_le_iff (by omega) (by omega)).mpr hn

theorem init_text {protocol message : String} {code : ℕ} (hcode : 100 ≤ code ∧ code < 1000) :
    (pieces (ascii protocol) code (ascii message) []).flatten =
      (WinAirPlay.httpResponseInit protocol code message).data := by
  have hcodestr : snprintf 4 code = ascii (toString code) := snprintf_eq (by omega) (by omega)
  simp [pieces, WinAirPlay.httpResponseInit, hcodestr, ascii_append, List.flatten_cons]

theorem addHeader_text (response : HttpResponse) (name : String) (value : Bytes) :
    (WinAirPlay.httpResponseAddHeader response name value).data =
      response.data ++ (Call.addHeader (ascii name) value).pieces.flatten := by
  simp [WinAirPlay.httpResponseAddHeader, WinAirPlay.httpResponseAddData, Call.pieces]

theorem finish_text (response : HttpResponse) (body : Bytes) (hint : body.length < 2 ^ 31) :
    (WinAirPlay.httpResponseFinish response body).data =
      response.data ++ (Call.finish body hint).pieces.flatten := by
  by_cases h : body = []
  · simp [WinAirPlay.httpResponseFinish, WinAirPlay.httpResponseAddData, Call.pieces, h]
  · have hlength : snprintf 15 body.length = ascii (toString body.length) :=
      snprintf_eq (by omega) (by omega)
    have hname : ascii "Content-Length: " = ascii "Content-Length" ++ ascii ": " := rfl
    simp [WinAirPlay.httpResponseFinish, WinAirPlay.httpResponseAddData, Call.pieces, h, hlength,
      ascii_append, hname]

theorem addHeaders_text (headers : List (String × Bytes)) (response : HttpResponse) :
    (headers.foldl (fun r h => WinAirPlay.httpResponseAddHeader r h.1 h.2) response).data =
      response.data ++
        ((headers.map fun h => Call.addHeader (ascii h.1) h.2).flatMap Call.pieces).flatten := by
  induction headers generalizing response with
  | nil => simp
  | cons header headers ih =>
    rw [List.foldl_cons, ih, addHeader_text, List.map_cons, List.flatMap_cons,
      List.flatten_append, List.append_assoc]

/-- The calls of one answer: some headers and the body. -/
def answer (headers : List (String × Bytes)) (body : Bytes) (hint : body.length < 2 ^ 31) :
    List Call :=
  headers.map (fun h => .addHeader (ascii h.1) h.2) ++ [.finish body hint]

/-- An exact response is the text that the response object stands for. -/
theorem Exact.text {garbage : ℕ → UInt8} {protocol message : String} {code : ℕ}
    {headers : List (String × Bytes)} {body : Bytes} {hint : body.length < 2 ^ 31}
    (hcode : 100 ≤ code ∧ code < 1000)
    (h : Exact garbage (ascii protocol) code (ascii message) (answer headers body hint)) :
    ∃ response, respond garbage (ascii protocol) code (ascii message)
        (answer headers body hint) = .ok response ∧
      response.data.take response.dataLength.toNat =
        (WinAirPlay.httpResponseFinish
          (headers.foldl (fun r h => WinAirPlay.httpResponseAddHeader r h.1 h.2)
            (WinAirPlay.httpResponseInit protocol code message)) body).data := by
  obtain ⟨response, hrun, hholds⟩ := h.returns
  refine ⟨response, hrun, ?_⟩
  have htext := hholds.text
  rw [hholds.dataLength, Int.toNat_natCast, htext, finish_text _ _ hint, addHeaders_text,
    ← init_text hcode]
  simp [pieces, answer]

end WinAirPlay.ResponseBuffer
